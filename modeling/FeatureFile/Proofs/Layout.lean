import FeatureFile.Proofs.Parts
import FeatureFile.Proofs.Words

/-!
# How a document is laid out

A layout says of every token of a document what it is there for: which tags belong to which
scenario, which comments stand behind which step, where a description ends. There is one type for
each phrase of the grammar, and a layout cannot be put together wrongly, since a `Leaf` knows the
kind of its token.

A layout has `parts`, the rules and tokens that a builder is told about. And it is complete: tokens
whose kinds form a word of the grammar have a layout (`Layout.document_covers`).
-/

namespace FeatureFile

namespace Layout

/-- A token of that kind. -/
structure Leaf (kind : TokenKind) where
  token : Token
  kind_eq : token.kind? = some kind

/-- A comment or a blank line. -/
inductive Gap where
  | comment (line : Leaf .comment)
  | blank (line : Leaf .empty)

/-- A title with blank lines, lines of a description, and comments with blank lines between them. -/
structure Head (kind : TokenKind) where
  title : Leaf kind
  blanks : List (Leaf .empty)
  lines : List (Leaf .other)
  remarks : Option (Leaf .comment × List Gap)

inductive TableLine where
  | row (line : Leaf .tableRow)
  | gap (gap : Gap)

structure Table where
  first : Leaf .tableRow
  rest : List TableLine

structure DocString where
  opener : Leaf .docStringSeparator
  lines : List (Leaf .other)
  closer : Leaf .docStringSeparator
  gaps : List Gap

inductive Argument where
  | table (table : Table)
  | docString (docString : DocString)

structure Step where
  line : Leaf .stepLine
  gaps : List Gap
  argument : Option Argument

structure TagLine where
  line : Leaf .tagLine
  gaps : List Gap

structure Examples where
  tags : List TagLine
  head : Head .examplesLine
  table : Option Table

structure Background where
  head : Head .backgroundLine
  steps : List Step

inductive Scenario where
  | plain (tags : List TagLine) (head : Head .scenarioLine) (steps : List Step)
  | outline (tags : List TagLine) (head : Head .scenarioOutlineLine) (steps : List Step)
      (examples : List Examples)

structure Feature where
  header : Option (Leaf .language × List Gap)
  tags : List TagLine
  head : Head .featureLine
  background : Option Background
  scenarios : List Scenario

structure Document where
  gaps : List Gap
  feature : Option Feature
  eof : Leaf .eof

/-! ## Parts -/

def Leaf.part {kind : TokenKind} (x : Leaf kind) : Part := .token x.token

theorem tokensAll_leaves {kind : TokenKind} (xs : List (Leaf kind)) :
    Part.tokensAll (xs.map Leaf.part) = xs.map Leaf.token := by
  rw [Part.tokensAll_map, List.map_eq_flatMap]
  rfl

def Gap.part : Gap → Part
  | .comment x => x.part
  | .blank x => x.part

def Head.description {kind : TokenKind} (x : Head kind) : List Part :=
  if x.lines.isEmpty then [] else [.node .description (x.lines.map Leaf.part)]

def Head.parts {kind : TokenKind} (x : Head kind) : List Part :=
  x.title.part :: (x.blanks.map Leaf.part ++ (x.description ++
    x.remarks.elim [] fun r => r.1.part :: r.2.map Gap.part))

def TableLine.part : TableLine → Part
  | .row x => x.part
  | .gap x => x.part

def Table.parts (x : Table) : List Part := x.first.part :: x.rest.map TableLine.part

def DocString.parts (x : DocString) : List Part :=
  x.opener.part :: (x.lines.map Leaf.part ++ x.closer.part :: x.gaps.map Gap.part)

def Argument.part : Argument → Part
  | .table x => .node .dataTable x.parts
  | .docString x => .node .docString x.parts

def Step.part (x : Step) : Part :=
  .node .step (x.line.part :: (x.gaps.map Gap.part ++ x.argument.toList.map Argument.part))

def TagLine.parts (x : TagLine) : List Part := x.line.part :: x.gaps.map Gap.part

/-- Tags have a rule of their own, if there are any. -/
def tagParts (xs : List TagLine) : List Part :=
  if xs.isEmpty then [] else [.node .tags (xs.flatMap TagLine.parts)]

def Examples.part (x : Examples) : Part :=
  .node .examplesDefinition (tagParts x.tags ++ [.node .examples
    (x.head.parts ++ x.table.toList.map fun t => .node .examplesTable t.parts)])

def Background.part (x : Background) : Part :=
  .node .background (x.head.parts ++ x.steps.map Step.part)

def Scenario.part : Scenario → Part
  | .plain tags head steps =>
    .node .scenarioDefinition
      (tagParts tags ++ [.node .scenario (head.parts ++ steps.map Step.part)])
  | .outline tags head steps examples =>
    .node .scenarioDefinition
      (tagParts tags ++ [.node .scenarioOutline
        (head.parts ++ (steps.map Step.part ++ examples.map Examples.part))])

/-- What stands in front of the title of a feature. -/
def Feature.headerParts (x : Feature) : List Part :=
  (x.header.elim [] fun h => h.1.part :: h.2.map Gap.part) ++ tagParts x.tags

def Feature.part (x : Feature) : Part :=
  .node .feature (.node .featureHeader (x.headerParts ++ x.head.parts) ::
    (x.background.toList.map Background.part ++ x.scenarios.map Scenario.part))

def Document.parts (x : Document) : List Part :=
  x.gaps.map Gap.part ++ (x.feature.toList.map Feature.part ++ [x.eof.part])

/-- The tokens of a document in their order. -/
def Document.tokens (x : Document) : List Token := Part.tokensAll x.parts

/-! ## Words -/

open Grammar Computability

/-- Tokens whose kinds form a word of the language. -/
def Spells (l : Language TokenKind) (ts : List Token) : Prop :=
  ∃ w ∈ l, ts.map Token.kind? = w.map some

/-- Whatever spells a word of the language can be laid out. -/
def Covers {α : Type} (l : Language TokenKind) (parts : α → List Part) : Prop :=
  ∀ ts, Spells l ts → ∃ x, Part.tokensAll (parts x) = ts

section Covers

variable {α β : Type} {l m : Language TokenKind} {f : α → List Part} {g : β → List Part}

theorem Covers.map (hf : Covers l f) (e : α → β)
    (h : ∀ x, Part.tokensAll (g (e x)) = Part.tokensAll (f x)) : Covers l g := by
  intro ts hts
  obtain ⟨x, rfl⟩ := hf ts hts
  exact ⟨e x, h x⟩

theorem Covers.only (kind : TokenKind) :
    Covers (Grammar.only kind) fun x : Leaf kind => [x.part] := by
  rintro ts ⟨w, hw, hts⟩
  obtain rfl : w = [kind] := hw
  obtain ⟨t, rfl⟩ := List.length_eq_one_iff.mp (by simpa using congrArg List.length hts)
  refine ⟨⟨t, ?_⟩, rfl⟩
  simpa using hts

theorem Covers.mul (hf : Covers l f) (hg : Covers m g) :
    Covers (l * m) fun x : α × β => f x.1 ++ g x.2 := by
  rintro ts ⟨w, hw, hts⟩
  obtain ⟨u, hu, v, hv, rfl⟩ := Language.mem_mul.mp hw
  rw [List.map_append] at hts
  obtain ⟨us, vs, rfl, hus, hvs⟩ := List.map_eq_append_iff.mp hts
  obtain ⟨x, hx⟩ := hf us ⟨u, hu, hus⟩
  obtain ⟨y, hy⟩ := hg vs ⟨v, hv, hvs⟩
  exact ⟨(x, y), by rw [Part.tokensAll_append, hx, hy]⟩

theorem Covers.add (hf : Covers l f) (hg : Covers m g) : Covers (l + m) (Sum.elim f g) := by
  rintro ts ⟨w, hw, hts⟩
  rcases (Language.mem_add _ _ _).mp hw with hw | hw
  · obtain ⟨x, hx⟩ := hf ts ⟨w, hw, hts⟩
    exact ⟨.inl x, hx⟩
  · obtain ⟨x, hx⟩ := hg ts ⟨w, hw, hts⟩
    exact ⟨.inr x, hx⟩

theorem Covers.optional (hf : Covers l f) : Covers (1 + l) fun o : Option α => o.elim [] f := by
  rintro ts ⟨w, hw, hts⟩
  rcases (Language.mem_add _ _ _).mp hw with hw | hw
  · obtain rfl := (Language.mem_one _).mp hw
    exact ⟨none, (List.map_eq_nil_iff.mp hts).symm⟩
  · obtain ⟨x, hx⟩ := hf ts ⟨w, hw, hts⟩
    exact ⟨some x, hx⟩

theorem Covers.star (hf : Covers l f) : Covers (l∗) fun xs : List α => xs.flatMap f := by
  rintro ts ⟨w, hw, hts⟩
  obtain ⟨ws, rfl, hws⟩ := Language.mem_kstar.mp hw
  clear hw
  induction ws generalizing ts with
  | nil => exact ⟨[], (List.map_eq_nil_iff.mp hts).symm⟩
  | cons u ws ih =>
      rw [List.flatten_cons, List.map_append] at hts
      obtain ⟨us, vs, rfl, hus, hvs⟩ := List.map_eq_append_iff.mp hts
      obtain ⟨x, hx⟩ := hf us ⟨u, hws u List.mem_cons_self, hus⟩
      obtain ⟨xs, hxs⟩ := ih vs (fun v hv => hws v (List.mem_cons_of_mem _ hv)) hvs
      refine ⟨x :: xs, ?_⟩
      show Part.tokensAll ((x :: xs).flatMap f) = us ++ vs
      rw [List.flatMap_cons, Part.tokensAll_append, hx, hxs]

/-- Repetition of what has a single part. -/
theorem Covers.starParts {h : α → Part} (hh : Covers l fun x => [h x]) :
    Covers (l∗) fun xs : List α => xs.map h := by
  refine hh.star.map id fun xs => ?_
  rw [id, List.map_eq_flatMap]

end Covers

/-! ## The grammar -/

theorem gap_covers : Covers (Grammar.only .comment + Grammar.only .empty)
    fun x : Gap => [x.part] := by
  refine ((Covers.only .comment).add (Covers.only .empty)).map
    (fun | .inl x => .comment x | .inr x => .blank x) ?_
  rintro (x | x) <;> rfl

theorem gaps_covers : Covers ignored fun xs : List Gap => xs.map Gap.part := gap_covers.starParts

/-- A title and what stands between it and the contents of its block. -/
theorem head_covers (kind : TokenKind) :
    Covers (Grammar.only kind * head) (Head.parts : Head kind → List Part) := by
  have hremarks := ((Covers.only .comment).mul gaps_covers).optional
  refine ((Covers.only kind).mul ((Covers.only .empty).starParts.mul
    ((Covers.only .other).starParts.mul hremarks))).map
    (fun x => ⟨x.1, x.2.1, x.2.2.1, x.2.2.2⟩) ?_
  rintro ⟨title, blanks, lines, remarks⟩
  have hlines : Part.tokensAll (Head.description ⟨title, blanks, lines, remarks⟩) =
      Part.tokensAll (lines.map Leaf.part) := by
    cases lines <;> simp [Head.description]
  cases remarks <;> simp [Head.parts, hlines]

theorem table_covers : Covers table Table.parts := by
  have hline : Covers (Grammar.only .tableRow + (Grammar.only .comment + Grammar.only .empty))
      fun x : TableLine => [x.part] := by
    refine ((Covers.only .tableRow).add gap_covers).map
      (fun | .inl x => .row x | .inr x => .gap x) ?_
    rintro (x | x) <;> rfl
  refine ((Covers.only .tableRow).mul hline.starParts).map (fun x => ⟨x.1, x.2⟩) ?_
  intro x
  rfl

theorem docString_covers : Covers docString DocString.parts := by
  refine ((Covers.only .docStringSeparator).mul ((Covers.only .other).starParts.mul
    ((Covers.only .docStringSeparator).mul gaps_covers))).map
    (fun x => ⟨x.1, x.2.1, x.2.2.1, x.2.2.2⟩) ?_
  intro x
  simp [DocString.parts]

theorem step_covers : Covers step fun x : Step => [x.part] := by
  have hargument : Covers (table + docString) fun x : Argument => [x.part] := by
    refine (table_covers.add docString_covers).map
      (fun | .inl x => .table x | .inr x => .docString x) ?_
    rintro (x | x) <;> simp [Argument.part]
  refine ((Covers.only .stepLine).mul (gaps_covers.mul hargument.optional)).map
    (fun x => ⟨x.1, x.2.1, x.2.2⟩) ?_
  rintro ⟨line, gaps, argument⟩
  cases argument <;> simp [Step.part]

theorem tags_covers : Covers tags tagParts := by
  refine (((Covers.only .tagLine).mul gaps_covers).star.map (List.map fun x => ⟨x.1, x.2⟩) ?_)
  intro xs
  cases xs with
  | nil => rfl
  | cons x xs => simp [tagParts, List.flatMap_map, TagLine.parts]

theorem examples_covers : Covers examples fun x : Examples => [x.part] := by
  have hhead := (head_covers .examplesLine).mul table_covers.optional
  rw [mul_assoc] at hhead
  refine (tags_covers.mul hhead).map (fun x => ⟨x.1, x.2.1, x.2.2⟩) ?_
  rintro ⟨tags, head, table⟩
  cases table <;> simp [Examples.part]

theorem background_covers : Covers background fun x : Background => [x.part] := by
  have hhead := (head_covers .backgroundLine).mul step_covers.starParts
  rw [mul_assoc] at hhead
  refine hhead.map (fun x => ⟨x.1, x.2⟩) ?_
  intro x
  simp [Background.part]

theorem scenario_covers : Covers (tags * titledScenario) fun x : Scenario => [x.part] := by
  have hplain := (head_covers .scenarioLine).mul step_covers.starParts
  have houtline := (head_covers .scenarioOutlineLine).mul
    (step_covers.starParts.mul examples_covers.starParts)
  rw [mul_assoc] at hplain houtline
  refine (tags_covers.mul (hplain.add houtline)).map (fun
    | ⟨tags, .inl x⟩ => .plain tags x.1 x.2
    | ⟨tags, .inr x⟩ => .outline tags x.1 x.2.1 x.2.2) ?_
  rintro ⟨tags, x | x⟩ <;> simp [Scenario.part]

theorem feature_covers :
    Covers ((1 + Grammar.only .language * ignored) * taggedFeature) fun x : Feature => [x.part] := by
  have hheader := ((Covers.only .language).mul gaps_covers).optional
  have hhead := (head_covers .featureLine).mul
    (background_covers.optional.mul scenario_covers.starParts)
  rw [mul_assoc] at hhead
  refine (hheader.mul (tags_covers.mul hhead)).map
    (fun x => ⟨x.1, x.2.1, x.2.2.1, x.2.2.2.1, x.2.2.2.2⟩) ?_
  rintro ⟨header, tags, head, background, scenarios⟩
  cases header <;> cases background <;> simp [Feature.part, Feature.headerParts]

/-- Tokens whose kinds form a document are those of a layout. -/
theorem document_covers : Covers document Document.parts := by
  refine (gaps_covers.mul (feature_covers.optional.mul (Covers.only .eof))).map
    (fun x => ⟨x.1, x.2.1, x.2.2⟩) ?_
  rintro ⟨gaps, feature, eof⟩
  cases feature <;> simp [Document.parts]

end Layout

end FeatureFile
