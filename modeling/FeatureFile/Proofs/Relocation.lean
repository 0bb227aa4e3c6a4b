import FeatureFile.Listing
import FeatureFile.Document.Builder
import FeatureFile.Proofs.Recording

/-!
# Moving to other places

Where something stands in a source is data that nothing is decided by. Two maps make that precise.
`relocate` changes the locations in a document and leaves everything else alone. `renumber` changes
the numbers of lines, in tokens, errors and calls and in whatever a builder has gathered from them.
The line itself is not looked at by builders either: `shift` changes it too.

A builder for which renumbering the calls is the same as renumbering the result is said to follow
renumberings (`Builder.Follows`). Both builders do: for `DocumentBuilder` that is one lemma for each
question that can be put to a node, and for each part of the document that is made from the answers,
and the lemmas speak of `shift` (`DocumentBuilder.receive_shift`).
-/

namespace FeatureFile

/-! ## Documents -/

section Relocate

variable (f : Location → Location)

def Tag.relocate (t : Tag) : Tag := { t with location := f t.location }

def Comment.relocate (c : Comment) : Comment := { c with location := f c.location }

def Cell.relocate (c : Cell) : Cell := { c with location := f c.location }

def Row.relocate (r : Row) : Row :=
  { location := f r.location, cells := r.cells.map (Cell.relocate f) }

def DataTable.relocate (t : DataTable) : DataTable :=
  { location := f t.location, rows := t.rows.map (Row.relocate f) }

def DocString.relocate (d : DocString) : DocString := { d with location := f d.location }

def Argument.relocate : Argument → Argument
  | .dataTable t => .dataTable (t.relocate f)
  | .docString d => .docString (d.relocate f)

def Step.relocate (s : Step) : Step :=
  { s with location := f s.location, argument := s.argument.map (Argument.relocate f) }

def Background.relocate (b : Background) : Background :=
  { b with location := f b.location, steps := b.steps.map (Step.relocate f) }

def Scenario.relocate (s : Scenario) : Scenario :=
  { s with
    tags := s.tags.map (Tag.relocate f)
    location := f s.location
    steps := s.steps.map (Step.relocate f) }

def ExamplesTable.relocate (t : ExamplesTable) : ExamplesTable :=
  { header := t.header.relocate f, body := t.body.map (Row.relocate f) }

def Examples.relocate (e : Examples) : Examples :=
  { e with
    tags := e.tags.map (Tag.relocate f)
    location := f e.location
    table := e.table.map (ExamplesTable.relocate f) }

def ScenarioOutline.relocate (o : ScenarioOutline) : ScenarioOutline :=
  { o with
    tags := o.tags.map (Tag.relocate f)
    location := f o.location
    steps := o.steps.map (Step.relocate f)
    examples := o.examples.map (Examples.relocate f) }

def ScenarioDefinition.relocate : ScenarioDefinition → ScenarioDefinition
  | .scenario s => .scenario (s.relocate f)
  | .outline o => .outline (o.relocate f)

def Feature.relocate (x : Feature) : Feature :=
  { x with
    tags := x.tags.map (Tag.relocate f)
    location := f x.location
    background := x.background.map (Background.relocate f)
    scenarios := x.scenarios.map (ScenarioDefinition.relocate f) }

/-- The document with every location changed. -/
def Document.relocate (d : Document) : Document :=
  { feature := d.feature.map (Feature.relocate f), comments := d.comments.map (Comment.relocate f) }

end Relocate

@[simp] theorem Tag.relocate_id : Tag.relocate id = id := rfl

@[simp] theorem Comment.relocate_id : Comment.relocate id = id := rfl

@[simp] theorem Cell.relocate_id : Cell.relocate id = id := rfl

@[simp] theorem Row.relocate_id : Row.relocate id = id := by
  funext r
  simp [relocate]

@[simp] theorem DataTable.relocate_id : DataTable.relocate id = id := by
  funext t
  simp [relocate]

@[simp] theorem DocString.relocate_id : DocString.relocate id = id := rfl

@[simp] theorem Argument.relocate_id : Argument.relocate id = id := by
  funext a
  cases a <;> simp [relocate]

@[simp] theorem Step.relocate_id : Step.relocate id = id := by
  funext s
  simp [relocate]

@[simp] theorem Background.relocate_id : Background.relocate id = id := by
  funext b
  simp [relocate]

@[simp] theorem Scenario.relocate_id : Scenario.relocate id = id := by
  funext s
  simp [relocate]

@[simp] theorem ExamplesTable.relocate_id : ExamplesTable.relocate id = id := by
  funext t
  simp [relocate]

@[simp] theorem Examples.relocate_id : Examples.relocate id = id := by
  funext e
  simp [relocate]

@[simp] theorem ScenarioOutline.relocate_id : ScenarioOutline.relocate id = id := by
  funext o
  simp [relocate]

@[simp] theorem ScenarioDefinition.relocate_id : ScenarioDefinition.relocate id = id := by
  funext s
  cases s <;> simp [relocate]

@[simp] theorem Feature.relocate_id : Feature.relocate id = id := by
  funext x
  simp [relocate]

/-! ## Numbers of lines -/

section Renumber

variable (σ : Int → Int)

def Location.renumber (l : Location) : Location := { l with line := σ l.line }

def Place.renumber (p : Place) : Place := { p with line := σ p.line }

def ParseError.renumber (e : ParseError) : ParseError :=
  { e with stamp := e.stamp.renumber σ, place := e.place.renumber σ }

def Refusal.renumber : Refusal → Refusal
  | .error e => .error (e.renumber σ)
  | .errors es => .errors (es.map (ParseError.renumber σ))
  | .fault f => .fault f

def Token.renumber (t : Token) : Token := { t with number := σ t.number }

def Call.renumber : Call → Call
  | .opened r => .opened r
  | .closed r => .closed r
  | .read t => .read (t.renumber σ)

mutual

def NodeItem.renumber : NodeItem → NodeItem
  | .token kind t => .token kind (t.renumber σ)
  | .node r items => .node r (NodeItem.renumberAll items)
  | .step s => .step (s.relocate (Location.renumber σ))
  | .dataTable t => .dataTable (t.relocate (Location.renumber σ))
  | .docString d => .docString (d.relocate (Location.renumber σ))
  | .background b => .background (b.relocate (Location.renumber σ))
  | .scenarioDefinition s => .scenarioDefinition (s.relocate (Location.renumber σ))
  | .examples e => .examples (e.relocate (Location.renumber σ))
  | .examplesTable t => .examplesTable (t.relocate (Location.renumber σ))
  | .description d => .description d
  | .feature x => .feature (x.map (Feature.relocate (Location.renumber σ)))
  | .document x => .document (x.map (Feature.relocate (Location.renumber σ)))

def NodeItem.renumberAll : List NodeItem → List NodeItem
  | [] => []
  | i :: is => NodeItem.renumber i :: NodeItem.renumberAll is

end

def Node.renumber (n : Node) : Node := { n with items := n.items.map (NodeItem.renumber σ) }

def DocumentBuilder.renumber (b : DocumentBuilder) : DocumentBuilder :=
  { stack := b.stack.map (Node.renumber σ)
    comments := b.comments.map (Comment.relocate (Location.renumber σ)) }

def Listing.renumber (l : Listing) : Listing := { tokens := l.tokens.map (Token.renumber σ) }

end Renumber

@[simp] theorem Location.renumber_id : Location.renumber id = id := rfl

@[simp] theorem ParseError.renumber_id : ParseError.renumber id = id := rfl

@[simp] theorem Refusal.renumber_id : Refusal.renumber id = id := by
  funext r
  cases r <;> simp [renumber]

section Shift

variable (σ : Int → Int) (g : Line → Line)

/-- The token with another number and another line. -/
def Token.shift (t : Token) : Token := { t with number := σ t.number, line := t.line.map g }

def Call.shift : Call → Call
  | .opened r => .opened r
  | .closed r => .closed r
  | .read t => .read (t.shift σ g)

mutual

def NodeItem.shift : NodeItem → NodeItem
  | .token kind t => .token kind (t.shift σ g)
  | .node r items => .node r (NodeItem.shiftAll items)
  | i => i.renumber σ

def NodeItem.shiftAll : List NodeItem → List NodeItem
  | [] => []
  | i :: is => NodeItem.shift i :: NodeItem.shiftAll is

end

def Node.shift (n : Node) : Node := { n with items := n.items.map (NodeItem.shift σ g) }

def DocumentBuilder.shift (b : DocumentBuilder) : DocumentBuilder :=
  { stack := b.stack.map (Node.shift σ g)
    comments := b.comments.map (Comment.relocate (Location.renumber σ)) }

def Listing.shift (l : Listing) : Listing := { tokens := l.tokens.map (Token.shift σ g) }

end Shift

variable {σ : Int → Int} {g : Line → Line}

@[simp] theorem Token.location_shift (t : Token) :
    (t.shift σ g).location = t.location.renumber σ := rfl

@[simp] theorem NodeItem.shiftAll_eq (is : List NodeItem) :
    shiftAll σ g is = is.map (shift σ g) := by
  induction is with
  | nil => rfl
  | cons i is ih => rw [shiftAll, ih, List.map_cons]

@[simp] theorem NodeItem.label_shift (i : NodeItem) : (i.shift σ g).label = i.label := by
  cases i <;> rfl

theorem Token.shift_id (t : Token) : t.shift σ id = t.renumber σ := by
  rw [shift, Option.map_id]
  rfl

theorem Call.shift_id (c : Call) : c.shift σ id = c.renumber σ := by
  cases c with
  | read t => rw [shift, Token.shift_id, renumber]
  | _ => rfl

mutual

theorem NodeItem.shift_id : ∀ i : NodeItem, i.shift σ id = i.renumber σ
  | .token kind t => by rw [shift, Token.shift_id, renumber]
  | .node r items => by rw [shift, NodeItem.shiftAll_id items, renumber]
  | .step _ | .dataTable _ | .docString _ | .background _ | .scenarioDefinition _ | .examples _
  | .examplesTable _ | .description _ | .feature _ | .document _ => rfl

theorem NodeItem.shiftAll_id : ∀ is : List NodeItem, shiftAll σ id is = renumberAll σ is
  | [] => rfl
  | i :: is => by rw [shiftAll, renumberAll, NodeItem.shift_id i, NodeItem.shiftAll_id is]

end

/-! ## Asking a node -/

namespace Node

variable (n : Node)

theorem first_shift (l : Label) :
    (n.shift σ g).first l = (n.first l).map (NodeItem.shift σ g) := by
  simp only [first, shift, List.find?_map, Function.comp_def, NodeItem.label_shift]

theorem token_shift (kind : TokenKind) :
    (n.shift σ g).token kind = (n.token kind).map (Token.shift σ g) := by
  rw [token, token, first_shift]
  rcases n.first (.token kind) with _ | i
  · rfl
  · cases i <;> rfl

theorem tokensOf_shift (kind : TokenKind) (is : List NodeItem) :
    tokensOf kind (is.map (NodeItem.shift σ g)) =
      (tokensOf kind is).map (List.map (Token.shift σ g)) := by
  induction is with
  | nil => rfl
  | cons i is ih =>
      rw [List.map_cons]
      unfold tokensOf
      rw [NodeItem.label_shift]
      split
      · cases i with
        | token k t =>
            simp only [NodeItem.shift, ih]
            cases tokensOf kind is <;> rfl
        | _ => rfl
      · exact ih

theorem tokens_shift (kind : TokenKind) :
    (n.shift σ g).tokens kind = (n.tokens kind).map (List.map (Token.shift σ g)) :=
  tokensOf_shift kind n.items

theorem child?_shift (r : Rule) :
    (n.shift σ g).child? r = (n.child? r).map (Node.shift σ g) := by
  rw [child?, child?, first_shift]
  rcases n.first (.rule r) with _ | i
  · rfl
  · cases i <;> simp [NodeItem.shift, NodeItem.renumber, shift]

theorem tagsOf_shift (t : Token) :
    tagsOf (t.shift σ g) = (tagsOf t).map (Tag.relocate (Location.renumber σ)) := by
  simp only [tagsOf, List.map_map]
  rfl

theorem tags_shift :
    (n.shift σ g).tags = n.tags.map (List.map (Tag.relocate (Location.renumber σ))) := by
  rw [tags, tags, child?_shift]
  cases n.child? .tags with
  | none => rfl
  | some node =>
      simp only [Option.map_some, tokens_shift]
      cases node.tokens .tagLine with
      | error fault => rfl
      | ok ts => simp [Except.map, List.map_flatMap, List.flatMap_map, tagsOf_shift]

theorem rowOf_shift (t : Token) :
    rowOf (t.shift σ g) = (rowOf t).relocate (Location.renumber σ) := by
  simp only [rowOf, Row.relocate, List.map_map]
  rfl

theorem unevenRow_renumber (rows : List Row) :
    unevenRow (rows.map (Row.relocate (Location.renumber σ))) =
      (unevenRow rows).map (ParseError.renumber σ) := by
  cases rows with
  | nil => rfl
  | cons row rows =>
      simp only [unevenRow, List.map_cons, List.find?_map, Option.map_map, Function.comp_def,
        Row.relocate, List.length_map]
      rfl

theorem rows_shift :
    (n.shift σ g).rows =
      (n.rows.map (List.map (Row.relocate (Location.renumber σ)))).mapError
        (Refusal.renumber σ) := by
  rw [rows, rows, tokens_shift]
  cases n.tokens .tableRow with
  | error fault => rfl
  | ok ts =>
      have hrows : (ts.map (Token.shift σ g)).map rowOf =
          (ts.map rowOf).map (Row.relocate (Location.renumber σ)) := by
        simp only [List.map_map, Function.comp_def, rowOf_shift]
      have hread : ∀ us : List Token,
          (Except.ok us : Except Fault _).mapError Refusal.fault = .ok us := fun _ => rfl
      simp only [Except.map, bind, Except.bind, hread, hrows, unevenRow_renumber]
      cases unevenRow (ts.map rowOf) <;> rfl

theorem description?_shift : (n.shift σ g).description? = n.description? := by
  rw [description?, description?, first_shift]
  rcases n.first (.rule .description) with _ | i
  · rfl
  · cases i <;> rfl

theorem steps_shift :
    (n.shift σ g).steps = n.steps.map (Step.relocate (Location.renumber σ)) := by
  simp only [steps, shift, List.filterMap_map, List.map_filterMap]
  congr 1
  funext i
  cases i <;> rfl

theorem examples_shift :
    (n.shift σ g).examples = n.examples.map (Examples.relocate (Location.renumber σ)) := by
  simp only [examples, shift, List.filterMap_map, List.map_filterMap]
  congr 1
  funext i
  cases i <;> rfl

theorem scenarios_shift :
    (n.shift σ g).scenarios =
      n.scenarios.map (ScenarioDefinition.relocate (Location.renumber σ)) := by
  simp only [scenarios, shift, List.filterMap_map, List.map_filterMap]
  congr 1
  funext i
  cases i <;> rfl

theorem argument?_shift :
    (n.shift σ g).argument? = n.argument?.map (Argument.relocate (Location.renumber σ)) := by
  rw [argument?, argument?, first_shift, first_shift]
  rcases n.first (.rule .dataTable) with _ | i
  · rcases n.first (.rule .docString) with _ | j
    · rfl
    · cases j <;> rfl
  · rcases n.first (.rule .docString) with _ | j
    · cases i <;> rfl
    · cases i <;> cases j <;> rfl

theorem background?_shift :
    (n.shift σ g).background? = n.background?.map (Background.relocate (Location.renumber σ)) := by
  rw [background?, background?, first_shift]
  rcases n.first (.rule .background) with _ | i
  · rfl
  · cases i <;> rfl

theorem feature?_shift :
    (n.shift σ g).feature? = n.feature?.map (Feature.relocate (Location.renumber σ)) := by
  rw [feature?, feature?, first_shift]
  rcases n.first (.rule .feature) with _ | i
  · rfl
  · cases i <;> rfl

/-! ## Making parts of a document -/

theorem toStep_shift :
    (n.shift σ g).toStep = n.toStep.map (Step.relocate (Location.renumber σ)) := by
  rw [toStep, toStep, token_shift, argument?_shift]
  cases n.token .stepLine <;> rfl

theorem toDocString_shift :
    (n.shift σ g).toDocString = n.toDocString.map (DocString.relocate (Location.renumber σ)) := by
  rw [toDocString, toDocString, first_shift, tokens_shift]
  rcases n.first (.token .docStringSeparator) with _ | i
  · rfl
  · cases i with
    | token kind separator =>
        have hreading : (separator.shift σ g).reading = separator.reading := rfl
        simp only [Option.map_some, NodeItem.shift, hreading]
        cases separator.reading.bind Reading.text with
        | none => rfl
        | some contentType =>
            cases n.tokens .other with
            | error fault => rfl
            | ok ts =>
                simp only [Except.map, bind, Except.bind, List.map_map]
                rfl
    | _ => rfl

theorem toDataTable_shift :
    (n.shift σ g).toDataTable =
      (n.toDataTable.map (DataTable.relocate (Location.renumber σ))).mapError
        (Refusal.renumber σ) := by
  rw [toDataTable, toDataTable, rows_shift]
  rcases n.rows with refusal | _ | ⟨row, rows⟩ <;> rfl

theorem toExamplesTable_shift :
    (n.shift σ g).toExamplesTable =
      (n.toExamplesTable.map (ExamplesTable.relocate (Location.renumber σ))).mapError
        (Refusal.renumber σ) := by
  rw [toExamplesTable, toExamplesTable, rows_shift]
  rcases n.rows with refusal | _ | ⟨row, rows⟩ <;> rfl

theorem toBackground_shift :
    (n.shift σ g).toBackground =
      n.toBackground.map (Background.relocate (Location.renumber σ)) := by
  rw [toBackground, toBackground, token_shift, description?_shift, steps_shift]
  cases n.token .backgroundLine <;> rfl

theorem toScenarioDefinition_shift :
    (n.shift σ g).toScenarioDefinition =
      n.toScenarioDefinition.map (ScenarioDefinition.relocate (Location.renumber σ)) := by
  rw [toScenarioDefinition, toScenarioDefinition, tags_shift, child?_shift, child?_shift]
  cases n.tags with
  | error fault => rfl
  | ok tags =>
      cases n.child? .scenario with
      | some node =>
          simp only [Except.map, bind, Except.bind, Option.map_some, token_shift,
            description?_shift, steps_shift]
          cases node.token .scenarioLine <;> rfl
      | none =>
          cases n.child? .scenarioOutline with
          | none => rfl
          | some node =>
              simp only [Except.map, bind, Except.bind, Option.map_some, Option.map_none,
                token_shift, description?_shift, steps_shift, examples_shift]
              cases node.token .scenarioOutlineLine <;> rfl

theorem toExamples_shift :
    (n.shift σ g).toExamples = n.toExamples.map (Examples.relocate (Location.renumber σ)) := by
  rw [toExamples, toExamples, tags_shift, child?_shift]
  cases n.tags with
  | error fault => rfl
  | ok tags =>
      cases n.child? .examples with
      | none => rfl
      | some node =>
          simp only [Except.map, bind, Except.bind, Option.map_some, token_shift,
            description?_shift, first_shift]
          cases node.token .examplesLine with
          | error fault => rfl
          | ok line =>
              rcases node.first (.rule .examplesTable) with _ | i
              · rfl
              · cases i <;> rfl

theorem toDescription_shift : (n.shift σ g).toDescription = n.toDescription := by
  rw [toDescription, toDescription, tokens_shift]
  cases n.tokens .other with
  | error fault => rfl
  | ok ts =>
      simp only [Except.map, bind, Except.bind, List.map_map]
      rfl

theorem toFeature_shift :
    (n.shift σ g).toFeature =
      n.toFeature.map (Option.map (Feature.relocate (Location.renumber σ))) := by
  rw [toFeature, toFeature, child?_shift, background?_shift, scenarios_shift]
  cases n.child? .featureHeader with
  | none => rfl
  | some header =>
      simp only [Option.map_some, tags_shift, first_shift, description?_shift]
      cases header.tags with
      | error fault => rfl
      | ok tags =>
          rcases header.first (.token .featureLine) with _ | i
          · rfl
          · cases i <;> rfl

theorem toItem_shift :
    (n.shift σ g).toItem =
      (n.toItem.map (NodeItem.shift σ g)).mapError (Refusal.renumber σ) := by
  have hrule : (n.shift σ g).rule = n.rule := rfl
  rw [toItem, toItem, hrule]
  cases n.rule with
  | step => rw [toStep_shift]; cases n.toStep <;> rfl
  | docString => rw [toDocString_shift]; cases n.toDocString <;> rfl
  | dataTable => rw [toDataTable_shift]; cases n.toDataTable <;> rfl
  | background => rw [toBackground_shift]; cases n.toBackground <;> rfl
  | scenarioDefinition =>
      rw [toScenarioDefinition_shift]
      cases n.toScenarioDefinition <;> rfl
  | examplesDefinition => rw [toExamples_shift]; cases n.toExamples <;> rfl
  | examplesTable => rw [toExamplesTable_shift]; cases n.toExamplesTable <;> rfl
  | description => rw [toDescription_shift]; cases n.toDescription <;> rfl
  | feature => rw [toFeature_shift]; cases n.toFeature <;> rfl
  | document => rw [feature?_shift]; rfl
  | root | featureHeader | scenario | scenarioOutline | examples | tags | named _ =>
      simp only [Except.map, NodeItem.shift, NodeItem.shiftAll_eq]
      rfl

theorem add_shift (item : NodeItem) :
    (n.add item).shift σ g = (n.shift σ g).add (item.shift σ g) := by
  simp only [add, shift, List.map_append, List.map_cons, List.map_nil]

end Node

/-! ## Builders -/

/-- A map for each renumbering that takes what was made from some calls to what is made from the
renumbered ones. -/
structure Builder.Follows {β ρ : Type} [Builder β ρ] (move : (Int → Int) → β → β) : Prop where
  receive : ∀ σ c b, Builder.receive (Call.renumber σ c) (move σ b) =
    (move σ (Builder.receive c b).1, (Builder.receive c b).2.map (Refusal.renumber σ))
  reset : ∀ σ b, move σ (Builder.reset b) = Builder.reset b

namespace DocumentBuilder

theorem add_shift (item : NodeItem) (b : DocumentBuilder) :
    (b.shift σ g).add (item.shift σ g) =
      ((b.add item).1.shift σ g, (b.add item).2.map (Refusal.renumber σ)) := by
  obtain ⟨stack, comments⟩ := b
  cases stack with
  | nil => rfl
  | cons top below =>
      simp only [add, shift, List.map_cons, Node.add_shift]
      rfl

theorem read_shift (t : Token) (b : DocumentBuilder) :
    (b.shift σ g).read (t.shift σ g) =
      ((b.read t).1.shift σ g, (b.read t).2.map (Refusal.renumber σ)) := by
  have hreading : (t.shift σ g).reading = t.reading := rfl
  rw [read, read, hreading]
  cases t.reading with
  | none => rfl
  | some reading =>
      simp only []
      split
      · simp only [shift, List.map_append, List.map_cons, List.map_nil]
        rfl
      · exact add_shift (.token reading.kind t) b

theorem close_shift (b : DocumentBuilder) :
    (b.shift σ g).close = (b.close.1.shift σ g, b.close.2.map (Refusal.renumber σ)) := by
  obtain ⟨stack, comments⟩ := b
  match stack with
  | [] => rfl
  | [_] => rfl
  | node :: top :: below =>
      simp only [close, shift, List.map_cons, Node.toItem_shift]
      cases node.toItem with
      | error refusal => rfl
      | ok item => exact add_shift item { stack := top :: below, comments }

theorem receive_shift (c : Call) (b : DocumentBuilder) :
    receive (c.shift σ g) (b.shift σ g) =
      ((receive c b).1.shift σ g, (receive c b).2.map (Refusal.renumber σ)) := by
  cases c with
  | opened rule => rfl
  | closed rule => exact close_shift b
  | read t => exact read_shift t b

/-- To renumber is to leave lines as they are. -/
theorem shift_id (b : DocumentBuilder) : b.shift σ id = b.renumber σ := by
  have hitem : NodeItem.shift σ id = NodeItem.renumber σ := funext NodeItem.shift_id
  have hnode : Node.shift σ id = Node.renumber σ := by
    funext n
    rw [Node.shift, hitem, Node.renumber]
  rw [shift, renumber, hnode]

theorem follows : Builder.Follows DocumentBuilder.renumber where
  receive := by
    intro σ c b
    have hshift : receive (c.shift σ id) (b.shift σ id) = _ := receive_shift c b
    simp only [Call.shift_id, shift_id] at hshift
    exact hshift
  reset _ _ := rfl

end DocumentBuilder

theorem Listing.follows : Builder.Follows Listing.renumber where
  receive := by
    intro σ c l
    cases c with
    | opened rule => rfl
    | closed rule => rfl
    | read t =>
        simp only [Builder.receive, Listing.receive, Listing.renumber, List.map_append,
          List.map_cons, List.map_nil]
        rfl
  reset _ _ := rfl

namespace Recorder

variable {β ρ : Type} [Builder β ρ] {move : (Int → Int) → β → β}

/-- The notes with everything in them renumbered. -/
def renumber (move : (Int → Int) → β → β) (σ : Int → Int) (r : Recorder β) : Recorder β :=
  { builder := move σ r.builder, log := r.log.map (Prod.map (Call.renumber σ) (move σ)) }

theorem follows (h : Builder.Follows move) : Builder.Follows (renumber move) where
  receive := by
    intro σ c r
    have hreceive := h.receive σ c r.builder
    simp only [Builder.receive, receive, renumber, hreceive, List.map_append, List.map_cons,
      List.map_nil]
    rfl
  reset := by
    intro σ r
    simp only [Builder.reset, renumber, h.reset, List.map_nil]

end Recorder

end FeatureFile
