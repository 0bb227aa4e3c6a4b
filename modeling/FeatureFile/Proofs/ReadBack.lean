import FeatureFile.Proofs.Census
import FeatureFile.Proofs.Gathering
import FeatureFile.Proofs.Legible

/-!
# Looking parts of a document up in the source

A part of a document names a place in the source. Whoever goes there finds what the part says: behind
the indent of that line stands the keyword of a block with a colon and its name, the keyword of a step
and its text, the bar of a row, the separator of a doc string. The keywords are those of the language
that the feature names. Comments are lines as a whole, and the tags of a line are its at signs.

So locations are more than decoration, an editor can jump to them (`Parser.document_reads_back`). All
this is known of single tokens: a token is where its line is, its reading was made from that line, and
behind the language header one dialect is in force to the end. The document says what its tokens say.
-/

namespace FeatureFile

/-! ## Lines of a source -/

/-- The location is on that line of the source. -/
def Location.Names (ls : List Line) (p : Location) (l : Line) : Prop :=
  ∃ n : Nat, p.line = n + 1 ∧ ls[n]? = some l

/-- The location is behind the indent of its line, and the text stands there up to the end of the
line. -/
def Location.Reads (ls : List Line) (p : Location) (t : Text) : Prop :=
  ∃ l, p.Names ls l ∧ p.column - 1 = l.indent ∧ l.drop l.indent = t

/-- The at signs of a text of which the first character has that column, each with what stands
between it and the next one. -/
def Line.marksFrom (column : Nat) : Text → List Item
  | [] => []
  | c :: cs =>
    if c = '@' then
      { column, text := '@' :: Text.trim (cs.takeWhile (· ≠ '@')) } :: marksFrom (column + 1) cs
    else marksFrom (column + 1) cs

/-- The at signs of a line. -/
def Line.marks (l : Line) : List Item := marksFrom 1 l

/-! ## Documents that can be looked up -/

/-- The keywords of the title of a block. -/
def Dialect.titles (d : Dialect) : Block → List Text
  | .feature => d.features
  | .background => d.backgrounds
  | .scenario => d.scenarios
  | .outline => d.outlines
  | .examples => d.examples

section ReadsBack

variable (ls : List Line) (d : Dialect)

/-- A title with this keyword and this name is at that place. -/
structure Block.ReadsBack (b : Block) (p : Location) (keyword name : Text) : Prop where
  mem : keyword ∈ d.titles b
  reads : ∃ rest, p.Reads ls (keyword ++ ':' :: rest) ∧ Text.trim rest = name

def Row.ReadsBack (x : Row) : Prop := ∃ rest, x.location.Reads ls ('|' :: rest)

def Argument.ReadsBack : Argument → Prop
  | .dataTable x => (∃ rest, x.location.Reads ls ('|' :: rest)) ∧ ∀ r ∈ x.rows, r.ReadsBack ls
  | .docString x => ∃ (fence : Fence) (rest : Text), x.location.Reads ls (fence.text ++ rest)

structure Step.ReadsBack (x : Step) : Prop where
  mem : x.keyword ∈ d.steps
  reads : ∃ rest, x.location.Reads ls (x.keyword ++ rest) ∧ Text.trim rest = x.text
  argument : ∀ a ∈ x.argument, a.ReadsBack ls

structure Background.ReadsBack (x : Background) : Prop where
  title : Block.background.ReadsBack ls d x.location x.keyword x.name
  steps : ∀ s ∈ x.steps, s.ReadsBack ls d

structure Examples.ReadsBack (x : Examples) : Prop where
  title : Block.examples.ReadsBack ls d x.location x.keyword x.name
  rows : ∀ t ∈ x.table, ∀ r ∈ t.header :: t.body, r.ReadsBack ls

structure Scenario.ReadsBack (x : Scenario) : Prop where
  title : Block.scenario.ReadsBack ls d x.location x.keyword x.name
  steps : ∀ s ∈ x.steps, s.ReadsBack ls d

structure ScenarioOutline.ReadsBack (x : ScenarioOutline) : Prop where
  title : Block.outline.ReadsBack ls d x.location x.keyword x.name
  steps : ∀ s ∈ x.steps, s.ReadsBack ls d
  examples : ∀ e ∈ x.examples, e.ReadsBack ls d

def ScenarioDefinition.ReadsBack : ScenarioDefinition → Prop
  | .scenario x => x.ReadsBack ls d
  | .outline x => x.ReadsBack ls d

structure Feature.ReadsBack (x : Feature) : Prop where
  title : Block.feature.ReadsBack ls d x.location x.keyword x.name
  background : ∀ b ∈ x.background, b.ReadsBack ls d
  scenarios : ∀ s ∈ x.scenarios, s.ReadsBack ls d

end ReadsBack

def ScenarioDefinition.allTags : ScenarioDefinition → List Tag
  | .scenario x => x.tags
  | .outline x => x.tags ++ x.examples.flatMap Examples.tags

/-- The tags of a feature and of all that is in it. -/
def Feature.allTags (x : Feature) : List Tag :=
  x.tags ++ x.scenarios.flatMap ScenarioDefinition.allTags

def Document.allTags (x : Document) : List Tag := x.feature.toList.flatMap Feature.allTags

/-- A document of which every part can be looked up in the lines. -/
structure Document.ReadsBack (ls : List Line) (x : Document) : Prop where
  feature : ∀ f ∈ x.feature, ∃ d, Dialect.byName f.language = some d ∧ f.ReadsBack ls d
  comments : ∀ c ∈ x.comments, ∃ l, c.location.Names ls l ∧ c.text = Text.chomp l
  /-- The tags on the line of a tag are the at signs of this line. -/
  tags : ∀ t ∈ x.allTags, ∃ l, t.location.Names ls l ∧
    x.allTags.filter (fun u => u.location.line = t.location.line) =
      l.marks.map fun i => { location := ⟨t.location.line, i.column⟩, name := i.text }

/-! ## At signs -/

theorem Text.head_splitOn {sep : Char} {t p : Text} {ps : List Text}
    (h : splitOn sep t = p :: ps) : p = t.takeWhile (· ≠ sep) := by
  induction t generalizing p ps with
  | nil =>
      cases h
      rfl
  | cons c cs ih =>
      obtain ⟨q, qs, hsplit⟩ := exists_splitOn sep cs
      rw [splitOn_cons hsplit] at h
      split at h
      · next hc =>
          cases h
          rw [List.takeWhile_cons_of_neg (by simpa using hc)]
      · next hc =>
          cases h
          rw [List.takeWhile_cons_of_pos (by simpa using hc), ih hsplit]

namespace Line

/-- The tags of the pieces behind at signs are these at signs. -/
theorem tagsFrom_splitOn (column : Nat) (t : Text) :
    tagsFrom column (Text.splitOn '@' t) =
      { column, text := '@' :: Text.trim (t.takeWhile (· ≠ '@')) } :: marksFrom (column + 1) t := by
  induction t generalizing column with
  | nil => rfl
  | cons c cs ih =>
      obtain ⟨p, ps, hsplit⟩ := Text.exists_splitOn '@' cs
      have hrest := ih (column + 1)
      rw [Text.splitOn_cons hsplit, marksFrom]
      rw [hsplit] at hrest
      by_cases hc : c = '@'
      · rw [if_pos hc, if_pos hc, tagsFrom, List.takeWhile_cons_of_neg (by simpa using hc)]
        exact congrArg _ hrest
      · rw [if_neg hc, if_neg hc, tagsFrom, List.takeWhile_cons_of_pos (by simpa using hc),
          ← Text.head_splitOn hsplit]
        rw [tagsFrom, List.cons.injEq] at hrest
        rw [← hrest.2, List.length_cons]
        congr 2
        omega

theorem marksFrom_append_left {b : Text} (hb : '@' ∉ b) (column : Nat) (t : Text) :
    marksFrom column (b ++ t) = marksFrom (column + b.length) t := by
  induction b generalizing column with
  | nil => rfl
  | cons c b ih =>
      rw [List.mem_cons, not_or] at hb
      rw [List.cons_append, marksFrom, if_neg (Ne.symm hb.1), ih hb.2, List.length_cons]
      congr 1
      omega

/-- Blanks at the end belong to no tag. -/
theorem marksFrom_append_right {e : Text} (he : ∀ c ∈ e, FeatureFile.isBlank c = true) (column : Nat)
    (t : Text) : marksFrom column (t ++ e) = marksFrom column t := by
  have hat : '@' ∉ e := fun hmem => Bool.noConfusion (he '@' hmem)
  induction t generalizing column with
  | nil =>
      have hnone := marksFrom_append_left hat column []
      rwa [List.append_nil] at hnone
  | cons c cs ih =>
      have htext : Text.trim ((cs ++ e).takeWhile (· ≠ '@')) =
          Text.trim (cs.takeWhile (· ≠ '@')) := by
        rw [List.takeWhile_append]
        split
        · next hall =>
            have hself : cs.takeWhile (· ≠ '@') = cs :=
              (List.takeWhile_prefix _).eq_of_length hall
            rw [hself, Text.trim_append_blanks]
            exact fun c hc => he c ((List.takeWhile_prefix _).subset hc)
        · rfl
      rw [List.cons_append, marksFrom, marksFrom, ih, htext]

/-- The tags of a line of tags are its at signs. -/
theorem tags_eq_marks {l : Line} (h : l.startsWith ['@'] = true) : l.tags = l.marks := by
  obtain ⟨cs, hcs⟩ := exists_trimmed (head_of_startsWith h)
  obtain ⟨e, hsplit, he⟩ := Text.exists_dropEnd FeatureFile.isBlank l.trimmed
  change l.trimmed = Text.trim l ++ e at hsplit
  obtain ⟨cs', hcs'⟩ : ∃ cs', Text.trim l = '@' :: cs' := by
    have hmem : '@' ∈ l := by
      refine (List.dropWhile_sublist FeatureFile.isBlank).subset ?_
      rw [show l.dropWhile FeatureFile.isBlank = '@' :: cs from hcs]
      exact List.mem_cons_self
    cases htrim : Text.trim l with
    | nil => exact absurd (Text.mem_trim hmem rfl) (by simp [htrim])
    | cons c cs' =>
        rw [htrim, hcs] at hsplit
        exact ⟨cs', by rw [(List.cons.inj hsplit).1]⟩
  have hblanks : '@' ∉ l.takeWhile FeatureFile.isBlank := fun hmem =>
    Bool.noConfusion (List.mem_takeWhile_imp hmem)
  have hl : l = l.takeWhile FeatureFile.isBlank ++ (Text.trim l ++ e) := by
    rw [← hsplit]
    exact List.takeWhile_append_dropWhile.symm
  obtain ⟨p, ps, hpieces⟩ := Text.exists_splitOn '@' cs'
  calc l.tags
      = tagsFrom (l.indent + 1) (p :: ps) := by
        rw [tags, hcs', Text.splitOn_cons hpieces, if_pos rfl, List.tail_cons]
    _ = marksFrom (l.indent + 1) (Text.trim l) := by
        rw [← hpieces, tagsFrom_splitOn, hcs', marksFrom, if_pos rfl]
    _ = l.marks := by
        conv => rhs; rw [marks, hl]
        rw [marksFrom_append_left hblanks, marksFrom_append_right he, Nat.add_comm]
        rfl

end Line

/-! ## Tokens -/

/-- What the reading of a token says stands on its line. -/
structure Token.ReadsBack (ls : List Line) (d : Dialect) (t : Token) : Prop where
  title : ∀ b : Block, t.kind? = some b.kind →
    b.ReadsBack ls d t.location (Node.keywordOf t) (Node.textOf t)
  step : t.kind? = some .stepLine → Node.keywordOf t ∈ d.steps ∧
    ∃ rest, t.location.Reads ls (Node.keywordOf t ++ rest) ∧ Text.trim rest = Node.textOf t
  separator : t.kind? = some .docStringSeparator →
    ∃ (fence : Fence) (rest : Text), t.location.Reads ls (fence.text ++ rest)
  row : t.kind? = some .tableRow → ∃ rest, t.location.Reads ls ('|' :: rest)
  comment : t.kind? = some .comment → ∃ l, t.location.Names ls l ∧ Node.textOf t = Text.chomp l
  tags : t.kind? = some .tagLine → ∃ l, t.location.Names ls l ∧ Node.itemsOf t = l.marks

/-- A line that starts with a text has it behind its indent. -/
theorem Line.exists_rest {l : Line} {start : Text} (h : l.startsWith start = true) :
    ∃ rest, l.drop l.indent = start ++ rest ∧ l.rest start.length = Text.trim rest := by
  obtain ⟨rest, hrest⟩ := List.isPrefixOf_iff_prefix.mp h
  refine ⟨rest, ?_, by rw [Line.rest, ← hrest, List.drop_left]⟩
  rw [hrest]
  have hsplit : l.takeWhile FeatureFile.isBlank ++ l.trimmed = l := List.takeWhile_append_dropWhile
  have hdrop : (l.takeWhile FeatureFile.isBlank ++ l.trimmed).drop l.indent = l.trimmed :=
    List.drop_left
  rwa [hsplit] at hdrop

/-- A separator line starts with a separator. -/
theorem Matcher.exists_fence {m next : Matcher} {l : Line} {reading : Reading}
    (h : m.readSeparator l = .yes reading next) :
    ∃ fence : Fence, reading.indent = l.indent ∧ l.startsWith fence.text = true := by
  rw [readSeparator] at h
  cases hdoc : m.separator with
  | none =>
      rw [hdoc] at h
      cases hfence : fenceOf l with
      | none =>
          rw [hfence] at h
          cases h
      | some fence =>
          rw [hfence] at h
          cases h
          exact ⟨fence, rfl, fenceOf_eq_some hfence⟩
  | some fence =>
      simp only [hdoc] at h
      split at h
      · next hstart =>
          cases h
          exact ⟨fence, rfl, hstart⟩
      · cases h

/-- A token that is read behind an indent stands there. -/
theorem Token.exists_reads {t : Token} {ls : List Line} {l : Line} {start : Text}
    {reading : Reading} (hl : t.location.Names ls l) (hreading : t.reading = some reading)
    (hindent : reading.indent = l.indent) (hstart : l.startsWith start = true) :
    ∃ rest, t.location.Reads ls (start ++ rest) ∧ l.rest start.length = Text.trim rest := by
  obtain ⟨rest, hdrop, hrest⟩ := Line.exists_rest hstart
  refine ⟨rest, ⟨l, hl, ?_, hdrop⟩, hrest⟩
  rw [Token.location, Token.column, hreading, ← hindent]
  simp

namespace Stride.Taken

variable {m next : Matcher} {x : Stride} {ls : List Line} {d : Dialect} {k : TokenKind}

theorem exists_line (h : x.Taken m next) (hline : ∀ l ∈ x.token.line, x.token.location.Names ls l)
    (hk : x.token.kind? = some k) (hne : k ≠ .eof) : ∃ l reading, x.token.location.Names ls l ∧
      x.token.reading = some reading ∧ m.readLine k l = .yes reading next := by
  have hkind : x.move.kind = k := Option.some.inj (h.kind.symm.trans hk)
  obtain ⟨l, reading, hl, hreading, hread⟩ := h.readLine (hkind ▸ hne)
  exact ⟨l, reading, hline l hl, hreading, hkind ▸ hread⟩

theorem readsBack_title (h : x.Taken m next)
    (hline : ∀ l ∈ x.token.line, x.token.location.Names ls l) (hdialect : m.dialect = d)
    {b : Block} (hb : x.token.kind? = some b.kind) :
    b.ReadsBack ls d x.token.location (Node.keywordOf x.token) (Node.textOf x.token) := by
  obtain ⟨l, reading, hl, hreading, hread⟩ :=
    h.exists_line hline hb (by cases b <;> exact TokenKind.noConfusion)
  have htitle : m.readTitle b.kind (d.titles b) l = some reading := by
    cases b <;> rw [Block.kind, Matcher.readLine, hdialect] at hread <;>
      exact (Matcher.verdictOf_yes hread).1
  obtain ⟨keyword, hfind, rfl⟩ := Option.map_eq_some_iff.mp htitle
  have hstart : l.startsWithTitle keyword = true := List.find?_some hfind
  obtain ⟨rest, hrest, htext⟩ := Token.exists_reads hl hreading rfl hstart
  rw [List.append_assoc] at hrest
  rw [List.length_append] at htext
  rw [Node.keywordOf, Node.textOf, hreading]
  exact ⟨List.mem_of_find?_eq_some hfind, rest, hrest, htext.symm⟩

theorem readsBack_step (h : x.Taken m next)
    (hline : ∀ l ∈ x.token.line, x.token.location.Names ls l) (hdialect : m.dialect = d)
    (hstyle : m.style = .plain) (hstep : x.token.kind? = some .stepLine) :
    Node.keywordOf x.token ∈ d.steps ∧ ∃ rest,
      x.token.location.Reads ls (Node.keywordOf x.token ++ rest) ∧
        Text.trim rest = Node.textOf x.token := by
  obtain ⟨l, reading, hl, hreading, hread⟩ := h.exists_line hline hstep TokenKind.noConfusion
  have hplain := (Matcher.verdictOf_yes hread).1
  rw [Matcher.readStep, Matcher.stepMark, hstyle, hdialect] at hplain
  obtain ⟨keyword, hfind, rfl⟩ := Option.map_eq_some_iff.mp hplain
  obtain ⟨rest, hrest, htext⟩ := Token.exists_reads hl hreading rfl (List.find?_some hfind)
  rw [Node.keywordOf, Node.textOf, hreading]
  exact ⟨List.mem_of_find?_eq_some hfind, rest, hrest, htext.symm⟩

theorem readsBack_row (h : x.Taken m next)
    (hline : ∀ l ∈ x.token.line, x.token.location.Names ls l)
    (hrow : x.token.kind? = some .tableRow) :
    ∃ rest, x.token.location.Reads ls ('|' :: rest) := by
  obtain ⟨l, reading, hl, hreading, hread⟩ := h.exists_line hline hrow TokenKind.noConfusion
  rw [Matcher.readLine] at hread
  split at hread
  · next hstart =>
      have hindent : reading.indent = l.indent := by
        split at hread
        · cases hread
        · cases hread
          rfl
      obtain ⟨rest, hrest, _⟩ := Token.exists_reads hl hreading hindent hstart
      exact ⟨rest, hrest⟩
  · cases hread

theorem readsBack_comment (h : x.Taken m next)
    (hline : ∀ l ∈ x.token.line, x.token.location.Names ls l)
    (hcomment : x.token.kind? = some .comment) :
    ∃ l, x.token.location.Names ls l ∧ Node.textOf x.token = Text.chomp l := by
  obtain ⟨l, reading, hl, hreading, hread⟩ := h.exists_line hline hcomment TokenKind.noConfusion
  rw [Matcher.readLine] at hread
  split at hread
  · cases hread
    exact ⟨l, hl, by rw [Node.textOf, hreading]; rfl⟩
  · cases hread

theorem readsBack_tags (h : x.Taken m next)
    (hline : ∀ l ∈ x.token.line, x.token.location.Names ls l)
    (htags : x.token.kind? = some .tagLine) :
    ∃ l, x.token.location.Names ls l ∧ Node.itemsOf x.token = l.marks := by
  obtain ⟨l, reading, hl, hreading, hread⟩ := h.exists_line hline htags TokenKind.noConfusion
  rw [Matcher.readLine] at hread
  split at hread
  · next hstart =>
      cases hread
      refine ⟨l, hl, ?_⟩
      rw [← Line.tags_eq_marks hstart, Node.itemsOf, hreading]
      rfl
  · cases hread

theorem readsBack (h : x.Taken m next) (hline : ∀ l ∈ x.token.line, x.token.location.Names ls l)
    (hm : x.move.kind ∉ [TokenKind.empty, .comment, .language] →
      m.dialect = d ∧ m.style = .plain) : x.token.ReadsBack ls d where
  title b hb := by
    refine h.readsBack_title hline (hm ?_).1 hb
    rw [Option.some.inj (h.kind.symm.trans hb)]
    cases b <;> decide
  step hstep := by
    obtain ⟨hdialect, hstyle⟩ := hm (by
      rw [Option.some.inj (h.kind.symm.trans hstep)]
      decide)
    exact h.readsBack_step hline hdialect hstyle hstep
  separator hsep := by
    obtain ⟨l, reading, hl, hreading, hread⟩ := h.exists_line hline hsep TokenKind.noConfusion
    obtain ⟨fence, hindent, hstart⟩ := Matcher.exists_fence hread
    obtain ⟨rest, hrest, _⟩ := Token.exists_reads hl hreading hindent hstart
    exact ⟨fence, rest, hrest⟩
  row := h.readsBack_row hline
  comment := h.readsBack_comment hline
  tags := h.readsBack_tags hline

end Stride.Taken

/-! ## Phrases -/

namespace Layout

variable {ls : List Line} {d : Dialect}

theorem Table.readsBack (x : Table) (htokens : ∀ t ∈ Part.tokensAll x.parts, t.ReadsBack ls d) :
    ∀ r ∈ x.rows, r.ReadsBack ls := by
  intro r hr
  rcases List.mem_cons.mp hr with rfl | hr
  · exact (htokens _ List.mem_cons_self).row x.first.kind_eq
  · obtain ⟨line, hline, hr⟩ := List.mem_filterMap.mp hr
    cases line with
    | gap y => cases hr
    | row y =>
        cases hr
        refine (htokens _ (List.mem_cons_of_mem _ ?_)).row y.kind_eq
        exact Part.mem_tokensAll_map hline (List.mem_singleton_self _)

theorem Argument.readsBack (x : Argument) (htokens : ∀ t ∈ x.part.tokens, t.ReadsBack ls d) :
    x.value.ReadsBack ls := by
  cases x with
  | table x => exact ⟨x.readsBack htokens _ List.mem_cons_self, x.readsBack htokens⟩
  | docString x => exact (htokens _ List.mem_cons_self).separator x.opener.kind_eq

theorem Step.readsBack (x : Step) (htokens : ∀ t ∈ x.part.tokens, t.ReadsBack ls d) :
    x.value.ReadsBack ls d := by
  simp only [Step.part, Part.tokens_node, Part.tokensAll_cons, Part.tokensAll_append,
    List.forall_mem_append] at htokens
  obtain ⟨hline, _, hargument⟩ := htokens
  obtain ⟨hmem, hreads⟩ := (hline x.line.token List.mem_cons_self).step x.line.kind_eq
  refine ⟨hmem, hreads, fun a ha => ?_⟩
  obtain ⟨y, hy, rfl⟩ := Option.map_eq_some_iff.mp ha
  exact y.readsBack fun t ht =>
    hargument t (Part.mem_tokensAll_map (Option.mem_toList.mpr hy) ht)

theorem readsBack_steps (xs : List Step)
    (htokens : ∀ t ∈ Part.tokensAll (xs.map Step.part), t.ReadsBack ls d) :
    ∀ s ∈ xs.map Step.value, s.ReadsBack ls d := by
  intro s hs
  obtain ⟨x, hx, rfl⟩ := List.mem_map.mp hs
  exact x.readsBack fun t ht => htokens t (Part.mem_tokensAll_map hx ht)

theorem Head.readsBack (b : Block) (x : Head b.kind)
    (htokens : ∀ t ∈ Part.tokensAll x.parts, t.ReadsBack ls d) :
    b.ReadsBack ls d x.title.token.location (Node.keywordOf x.title.token)
      (Node.textOf x.title.token) :=
  (htokens _ x.title_mem).title b x.title.kind_eq

theorem Background.readsBack (x : Background) (htokens : ∀ t ∈ x.part.tokens, t.ReadsBack ls d) :
    x.value.ReadsBack ls d := by
  simp only [Background.part, Part.tokens_node, Part.tokensAll_append,
    List.forall_mem_append] at htokens
  exact ⟨Head.readsBack .background x.head htokens.1, readsBack_steps x.steps htokens.2⟩

theorem Examples.readsBack (x : Examples) (htokens : ∀ t ∈ x.part.tokens, t.ReadsBack ls d) :
    x.value.ReadsBack ls d := by
  simp only [Examples.part, Part.tokens_node, Part.tokensAll_append, Part.tokensAll_cons,
    Part.tokensAll_nil, List.append_nil, List.forall_mem_append] at htokens
  obtain ⟨_, hhead, htable⟩ := htokens
  refine ⟨Head.readsBack .examples x.head hhead, fun t ht => ?_⟩
  obtain ⟨y, hy, rfl⟩ := Option.map_eq_some_iff.mp ht
  refine y.readsBack fun u hu => htable u ?_
  exact Part.mem_tokensAll_map (f := fun t : Table => .node .examplesTable t.parts)
    (Option.mem_toList.mpr hy) hu

theorem Scenario.readsBack (x : Scenario) (htokens : ∀ t ∈ x.part.tokens, t.ReadsBack ls d) :
    x.value.ReadsBack ls d := by
  cases x with
  | plain tags head steps =>
      simp only [Scenario.part, Part.tokens_node, Part.tokensAll_append, Part.tokensAll_cons,
        Part.tokensAll_nil, List.append_nil, List.forall_mem_append] at htokens
      obtain ⟨_, hhead, hsteps⟩ := htokens
      exact ⟨Head.readsBack .scenario head hhead, readsBack_steps steps hsteps⟩
  | outline tags head steps examples =>
      simp only [Scenario.part, Part.tokens_node, Part.tokensAll_append, Part.tokensAll_cons,
        Part.tokensAll_nil, List.append_nil, List.forall_mem_append] at htokens
      obtain ⟨_, hhead, hsteps, htables⟩ := htokens
      refine ⟨Head.readsBack .outline head hhead, readsBack_steps steps hsteps, fun e he => ?_⟩
      obtain ⟨y, hy, rfl⟩ := List.mem_map.mp he
      exact y.readsBack fun t ht => htables t (Part.mem_tokensAll_map hy ht)

theorem Feature.readsBack (x : Feature) (htokens : ∀ t ∈ x.part.tokens, t.ReadsBack ls d) :
    x.value.ReadsBack ls d := by
  simp only [Feature.part, Feature.headerParts, Part.tokens_node, Part.tokensAll_append,
    Part.tokensAll_cons, List.forall_mem_append] at htokens
  obtain ⟨⟨_, hhead⟩, hbackground, hscenarios⟩ := htokens
  refine ⟨Head.readsBack .feature x.head hhead, fun b hb => ?_, fun s hs => ?_⟩
  · obtain ⟨y, hy, rfl⟩ := Option.map_eq_some_iff.mp hb
    exact y.readsBack fun t ht =>
      hbackground t (Part.mem_tokensAll_map (Option.mem_toList.mpr hy) ht)
  · obtain ⟨y, hy, rfl⟩ := List.mem_map.mp hs
    exact y.readsBack fun t ht => hscenarios t (Part.mem_tokensAll_map hy ht)

end Layout

/-! ## The tags of a document -/

/-- The tags that a token stands for. -/
def Token.tags (t : Token) : List Tag := if t.kind? = some .tagLine then Node.tagsOf t else []

namespace Layout

/-- Only lines of tags stand for tags. -/
theorem gather_tags_eq_nil {ks : List TokenKind} {ps : List Part} (h : Part.Kinds ks ps)
    (hks : .tagLine ∉ ks) : Part.gather Token.tags ps = [] := by
  refine h.gather_eq_nil fun t k hk hkind => ?_
  rw [Token.tags, hkind, if_neg]
  rintro ⟨rfl⟩
  exact hks hk

theorem gather_tagParts (xs : List TagLine) :
    Part.gather Token.tags (tagParts xs) = tagValues xs := by
  have hlines : Part.gather Token.tags (xs.flatMap TagLine.parts) = tagValues xs := by
    rw [Part.gather_flatMap, tagValues]
    refine List.flatMap_congr fun x _ => ?_
    rw [TagLine.parts, Leaf.part, Part.gather_token, gather_tags_eq_nil (kinds_gaps x.gaps) (by decide),
      List.append_nil, Token.tags, x.line.kind_eq, if_pos rfl]
  cases xs with
  | nil => rfl
  | cons x xs =>
      rw [tagParts, if_neg (by simp), Part.gather_node, hlines, Part.gather_nil, List.append_nil]

theorem gather_steps (xs : List Step) : Part.gather Token.tags (xs.map Step.part) = [] :=
  gather_tags_eq_nil (.map Step.kinds) (by decide)

theorem Examples.gather_tags (x : Examples) :
    Part.gather Token.tags [x.part] = x.value.tags := by
  have htable : Part.gather Token.tags
      (x.table.toList.map fun t => .node .examplesTable t.parts) = [] :=
    gather_tags_eq_nil (.map fun t => .node t.kinds) (by decide)
  simp only [Examples.part, Part.gather_node, Part.gather_append, gather_tagParts, htable,
    gather_tags_eq_nil x.head.kinds (by decide), Part.gather_nil, List.append_nil]
  rfl

theorem Scenario.gather_tags (x : Scenario) :
    Part.gather Token.tags [x.part] = x.value.allTags := by
  cases x with
  | plain tags head steps =>
      simp only [Scenario.part, Part.gather_node, Part.gather_append, gather_tagParts, gather_steps,
        gather_tags_eq_nil head.kinds (by decide), Part.gather_nil, List.append_nil]
      rfl
  | outline tags head steps examples =>
      have hexamples : Part.gather Token.tags (examples.map Examples.part) =
          (examples.map Examples.value).flatMap FeatureFile.Examples.tags := by
        rw [Part.gather_map, List.flatMap_map]
        exact List.flatMap_congr fun x _ => x.gather_tags
      simp only [Scenario.part, Part.gather_node, Part.gather_append, gather_tagParts, gather_steps,
        gather_tags_eq_nil head.kinds (by decide), hexamples, Part.gather_nil, List.append_nil,
        List.nil_append]
      rfl

theorem Feature.gather_tags (x : Feature) :
    Part.gather Token.tags [x.part] = x.value.allTags := by
  have hbackground : Part.gather Token.tags (x.background.toList.map Background.part) = [] :=
    gather_tags_eq_nil (.map Background.kinds) (by decide)
  have hscenarios : Part.gather Token.tags (x.scenarios.map Scenario.part) =
      (x.scenarios.map Scenario.value).flatMap ScenarioDefinition.allTags := by
    rw [Part.gather_map, List.flatMap_map]
    exact List.flatMap_congr fun y _ => y.gather_tags
  simp only [Feature.part, Feature.headerParts, Part.gather_node, Part.gather_append,
    gather_tagParts, gather_tags_eq_nil (kinds_header x.header) (by decide),
    gather_tags_eq_nil x.head.kinds (by decide), hbackground, hscenarios, Part.gather_nil,
    List.append_nil, List.nil_append]
  rfl

/-- A document has the tags that its tokens stand for. -/
theorem Document.allTags_value (x : Document) : x.value.allTags = x.tokens.flatMap Token.tags := by
  have hfeature : Part.gather Token.tags (x.feature.toList.map Feature.part) = x.value.allTags := by
    rw [Part.gather_map, Document.allTags, Document.value]
    cases x.feature with
    | none => rfl
    | some y =>
        have htags := y.gather_tags
        simpa using htags
  have hparts : Part.gather Token.tags x.parts = x.value.allTags := by
    rw [Document.parts, Part.gather_append, Part.gather_append, hfeature,
      gather_tags_eq_nil (kinds_gaps x.gaps) (by decide),
      gather_tags_eq_nil x.eof.kinds (by decide), List.append_nil, List.nil_append]
  exact hparts.symm

end Layout

theorem Token.line_of_mem_tags {t : Token} {x : Tag} (h : x ∈ t.tags) :
    t.kind? = some .tagLine ∧ x.location.line = t.number := by
  rw [Token.tags] at h
  split at h
  · next hkind =>
      obtain ⟨i, _, rfl⟩ := List.mem_map.mp h
      exact ⟨hkind, rfl⟩
  · cases h

/-- Of tokens on different lines, one has all the tags on its line. -/
theorem Token.tags_on_line {ts : List Token} (hnumbers : (ts.map Token.number).Pairwise (· < ·))
    {t : Token} (ht : t ∈ ts) :
    (ts.flatMap Token.tags).filter (fun u => u.location.line = t.number) = t.tags := by
  have hsame : ∀ u : Token, u.number = t.number →
      u.tags.filter (fun v => v.location.line = t.number) = u.tags := by
    intro u hu
    refine List.filter_eq_self.mpr fun v hv => ?_
    rw [decide_eq_true_eq, (line_of_mem_tags hv).2, hu]
  have hother : ∀ us : List Token, (∀ u ∈ us, u.number ≠ t.number) →
      (us.flatMap Token.tags).filter (fun v => v.location.line = t.number) = [] := by
    intro us hus
    refine List.filter_eq_nil_iff.mpr fun v hv => ?_
    obtain ⟨u, hu, hv⟩ := List.mem_flatMap.mp hv
    rw [decide_eq_true_eq, (line_of_mem_tags hv).2]
    exact hus u hu
  obtain ⟨before, after, rfl⟩ := List.append_of_mem ht
  rw [List.map_append, List.map_cons, List.pairwise_append, List.pairwise_cons] at hnumbers
  obtain ⟨_, ⟨hafter, _⟩, hbefore⟩ := hnumbers
  rw [List.flatMap_append, List.flatMap_cons, List.filter_append, List.filter_append, hsame t rfl,
    hother before fun u hu => ?_, hother after fun u hu => ?_, List.nil_append, List.append_nil]
  · exact (hafter _ (List.mem_map_of_mem hu)).ne'
  · exact (hbefore _ (List.mem_map_of_mem hu) _ List.mem_cons_self).ne

/-! ## Accepted sources -/

theorem Dialect.nodup_names : (Dialect.table.map Dialect.name).Nodup := by
  decide +kernel

theorem Dialect.byName_name {d : Dialect} (hd : d ∈ Dialect.table) :
    Dialect.byName d.name = some d := by
  cases h : Dialect.byName d.name with
  | none =>
      have hnot := List.find?_eq_none.mp h d hd
      exact absurd (beq_self_eq_true d.name) hnot
  | some d' =>
      have hname : d'.name = d.name := beq_iff_eq.mp (List.find?_some (a := d') h)
      rw [List.inj_on_of_nodup_map nodup_names (List.mem_of_find?_eq_some h) hd hname]

namespace Parser

/-- Every part of the document of an accepted source stands where it says, and as it says. -/
theorem document_reads_back (builder : DocumentBuilder) (stopAtFirst : Bool) (matcher : Matcher)
    (hmatcher : matcher.default ∈ Dialect.table) (hstyle : matcher.style = .plain) (source : Text)
    (d : Document) (h : (parse { builder, stopAtFirst } matcher source).outcome = .ok (some d)) :
    d.ReadsBack (Text.lines source) := by
  obtain ⟨x, xs, last, htokens, _, hvalue, htrail, htaken, hstrides, _⟩ := exists_layout h
  obtain rfl : d = x.value := Option.some.inj hvalue
  obtain ⟨_, _, hsettled⟩ := htaken.settled htrail rfl
  have hnumbers := built_numbers hmatcher h
  have hbare := built_bare hmatcher h
  rw [← htokens] at hnumbers hbare
  have hline : ∀ t ∈ x.tokens, ∀ l ∈ t.line, t.location.Names (Text.lines source) l := by
    intro t ht l hl
    have hmem : t.bare ∈ x.tokens.map Token.bare := List.mem_map_of_mem ht
    rw [hbare] at hmem
    rcases Reader.mem_fresh hmem with ⟨n, l', hn, hl', hnumber⟩ | ⟨hnone, _⟩
    · cases hl.symm.trans hl'
      exact ⟨n, by simpa [Token.location, Token.bare] using hnumber, hn⟩
    · cases hl.symm.trans hnone
  have hreads : ∀ t ∈ x.tokens, t.ReadsBack (Text.lines source) last.dialect := by
    intro t ht
    have hmem := ht
    rw [← hstrides] at hmem
    obtain ⟨z, hz, rfl⟩ := List.mem_map.mp hmem
    by_cases hkind : z.move.kind ∈ [TokenKind.empty, .comment, .language]
    · obtain ⟨m, next, htaken⟩ := htaken.exists_of_mem z hz
      exact htaken.readsBack (hline _ ht) fun hnot => absurd hkind hnot
    · obtain ⟨m, next, htaken, hdialect, hm, _⟩ := hsettled z hz hkind
      exact htaken.readsBack (hline _ ht) fun _ => ⟨hdialect, hm.trans hstyle⟩
  refine ⟨fun f hf => ?_, fun c hc => ?_, fun t ht => ?_⟩
  · obtain ⟨y, hy, rfl⟩ := Option.map_eq_some_iff.mp hf
    refine ⟨last.dialect, ?_, y.readsBack fun t ht => hreads t (x.mem_tokens_of_feature hy t ht)⟩
    rw [x.language_eq hy hstrides htrail htaken]
    exact Dialect.byName_name (htaken.dialect_mem hmatcher)
  · obtain ⟨t, ht, hc⟩ := List.mem_filterMap.mp hc
    rw [Token.comment?] at hc
    split at hc
    · next hkind =>
        cases hc
        exact (hreads t ht).comment hkind
    · cases hc
  · rw [x.allTags_value] at ht ⊢
    obtain ⟨u, hu, ht⟩ := List.mem_flatMap.mp ht
    obtain ⟨hkind, hnumber⟩ := Token.line_of_mem_tags ht
    obtain ⟨l, hl, hitems⟩ := (hreads u hu).tags hkind
    rw [hnumber, Token.tags_on_line hnumbers hu, Token.tags, if_pos hkind, Node.tagsOf, hitems]
    refine ⟨l, ?_, rfl⟩
    rw [Location.Names, hnumber]
    exact hl

/-- A Norwegian source with a part of every sort, tags close to each other and blanks around. -/
def norwegianSource : Text :=
  ("#language:no\n# n\n @a @b c@d \r\n  Egenskap: f\nBakgrunn: \n\tGitt g\n```x\n```\n" ++
    "Scenario: s\n* t \n |y|\n|z|\nScenariomal: o\n @e\nEksempler: \n|h|\n").toList

theorem document_reads_back_norwegianSource :
    Dialect.english ∈ Dialect.table ∧ (Matcher.new .plain .english).style = .plain ∧
      ∃ d : Document, (parse { builder := ({} : DocumentBuilder) } (.new .plain .english)
          norwegianSource).outcome = .ok (some d) ∧
        d.feature.map Feature.language = some "no".toList ∧
        d.allTags = [⟨⟨3, 2⟩, "@a".toList⟩, ⟨⟨3, 5⟩, "@b c".toList⟩, ⟨⟨3, 9⟩, "@d".toList⟩,
          ⟨⟨14, 2⟩, "@e".toList⟩] ∧
        d.ReadsBack (Text.lines norwegianSource) := by
  have henglish : Dialect.english ∈ Dialect.table := by decide
  have hcheck : ((parse { builder := ({} : DocumentBuilder) } (.new .plain .english)
      norwegianSource).outcome.toOption.join.any fun d =>
        d.feature.map Feature.language == some "no".toList &&
          d.allTags == [⟨⟨3, 2⟩, "@a".toList⟩, ⟨⟨3, 5⟩, "@b c".toList⟩, ⟨⟨3, 9⟩, "@d".toList⟩,
            ⟨⟨14, 2⟩, "@e".toList⟩]) = true := by
    decide +kernel
  obtain ⟨d, hd, hfound⟩ := (Option.any_eq_true _ _).mp hcheck
  obtain ⟨hlanguage, htags⟩ := (Bool.and_eq_true _ _).mp hfound
  have h := eq_ok_some_of_join hd
  exact ⟨henglish, rfl, d, h, beq_iff_eq.mp hlanguage, beq_iff_eq.mp htags,
    document_reads_back {} false (.new .plain .english) henglish rfl norwegianSource d h⟩

end Parser

end FeatureFile
