import FeatureFile.Proofs.Layout

/-!
# What a layout means

A layout has a value, the document that its tokens stand for, put together phrase by phrase. The
builder works differently: it gathers items by the rule they stand in and looks them up by label when
the rule closes. Here both are shown to agree (`Layout.Document.yield_parts`).

A builder may also refuse. It does so for a table with rows of different lengths, for a doc string
without an opening text and for a description of empty lines only. A layout without any of these is
`Valid`, and it is exactly then that the builder refuses nothing.
-/

namespace FeatureFile

/-- The comment that a token is, if it is one. -/
def Token.comment? (t : Token) : Option Comment :=
  if t.kind? = some .comment then some { location := t.location, text := Node.textOf t } else none

theorem Token.yield_comments (t : Token) : t.yield.comments = t.comment?.toList := by
  unfold Token.yield Token.comment? Token.kind? Node.textOf
  cases t.reading with
  | none => rfl
  | some reading => by_cases h : reading.kind = .comment <;> simp [h]

namespace Yield

theorem comments_close (r : Rule) (y : Yield) : (y.close r).comments = y.comments := by
  unfold close
  split <;> rfl

end Yield

namespace Part

mutual

/-- Comments are kept wherever they stand. -/
theorem yield_comments (p : Part) : p.yield.comments = p.tokens.filterMap Token.comment? := by
  match p with
  | .token t =>
      rw [yield_token, tokens_token, t.yield_comments]
      cases h : t.comment? <;> simp [h]
  | .node r ps => rw [yield_node, tokens_node, Yield.comments_close, yieldAll_comments ps]

theorem yieldAll_comments (ps : List Part) :
    (yieldAll ps).comments = (tokensAll ps).filterMap Token.comment? := by
  match ps with
  | [] => rfl
  | p :: ps =>
      rw [yieldAll_cons, tokensAll_cons, Yield.comments_append, List.filterMap_append,
        yield_comments p, yieldAll_comments ps]

end

/-- The items that become of some parts. -/
def items (ps : List Part) : List NodeItem := (yieldAll ps).items

/-- What is refused about some parts. -/
def refusals (ps : List Part) : List Refusal := (yieldAll ps).refusals

@[simp] theorem items_nil : items [] = [] := rfl

@[simp] theorem refusals_nil : refusals [] = [] := rfl

@[simp] theorem items_append (ps qs : List Part) : items (ps ++ qs) = items ps ++ items qs := by
  simp [items]

@[simp] theorem refusals_append (ps qs : List Part) :
    refusals (ps ++ qs) = refusals ps ++ refusals qs := by
  simp [refusals]

/-- The parts become these items if `valid` holds, and they are refused otherwise. -/
structure Yields (ps : List Part) (valid : Prop) (is : List NodeItem) : Prop where
  refusals_iff : refusals ps = [] ↔ valid
  items_eq : valid → items ps = is

namespace Yields

variable {ps qs : List Part} {p q : Prop} {is js : List NodeItem}

theorem congr (h : Yields ps p is) (hpq : p ↔ q) : Yields ps q is :=
  ⟨h.refusals_iff.trans hpq, fun hq => h.items_eq (hpq.mpr hq)⟩

theorem nil : Yields [] True [] := ⟨iff_of_true rfl trivial, fun _ => rfl⟩

theorem append (h : Yields ps p is) (h' : Yields qs q js) :
    Yields (ps ++ qs) (p ∧ q) (is ++ js) := by
  refine ⟨?_, fun hpq => ?_⟩
  · rw [refusals_append, List.append_eq_nil_iff, h.refusals_iff, h'.refusals_iff]
  · rw [items_append, h.items_eq hpq.1, h'.items_eq hpq.2]

/-- Parts in a row of which only the last may be refused. -/
theorem behind (h : Yields ps True is) (h' : Yields qs q js) : Yields (ps ++ qs) q (is ++ js) :=
  (h.append h').congr (by rw [true_and])

/-- Parts in a row of which only the first may be refused. -/
theorem before (h : Yields ps p is) (h' : Yields qs True js) : Yields (ps ++ qs) p (is ++ js) :=
  (h.append h').congr (by rw [and_true])

theorem list {α : Type} {f : α → Part} {valid : α → Prop} {g : α → List NodeItem}
    (h : ∀ x, Yields [f x] (valid x) (g x)) (xs : List α) :
    Yields (xs.map f) (∀ x ∈ xs, valid x) (xs.flatMap g) := by
  induction xs with
  | nil => exact nil.congr (by simp)
  | cons x xs ih => exact ((h x).append ih).congr (by simp)

/-- A rule that closes well exactly if `q` holds. -/
theorem node {r : Rule} {item : NodeItem} (h : Yields ps p is)
    (hok : q → Node.toItem { rule := r, items := is } = .ok item)
    (hq : p → ∀ i, Node.toItem { rule := r, items := is } = .ok i → q) :
    Yields [.node r ps] (p ∧ q) [item] := by
  have hclose : ∀ {i}, p → Node.toItem { rule := r, items := is } = .ok i →
      refusals [.node r ps] = [] ∧ items [.node r ps] = [i] := by
    intro i hp hi
    rw [← h.items_eq hp] at hi
    have hnil := h.refusals_iff.mpr hp
    simp only [items, refusals] at *
    simp [Yield.close_ok hi, hnil]
  refine ⟨⟨fun hnil => ?_, fun hpq => (hclose hpq.1 (hok hpq.2)).1⟩, fun hpq => ?_⟩
  · obtain ⟨hinner, i, hi⟩ := Yield.refusals_of_close (by simpa [refusals] using hnil)
    have hp := h.refusals_iff.mp hinner
    have hitems : (yieldAll ps).items = is := h.items_eq hp
    rw [hitems] at hi
    exact ⟨hp, hq hp i hi⟩
  · exact (hclose hpq.1 (hok hpq.2)).2

/-- A rule that always closes well. -/
theorem node_ok {r : Rule} {item : NodeItem} (h : Yields ps p is)
    (hok : Node.toItem { rule := r, items := is } = .ok item) : Yields [.node r ps] p [item] :=
  (h.node (fun _ : True => hok) fun _ _ _ => trivial).congr (by rw [and_true])

end Yields

end Part

namespace Layout

open FeatureFile.Part

variable {kind : TokenKind}

theorem Leaf.yields (hkind : kind ≠ .comment) (x : Leaf kind) :
    Yields [x.part] True [.token kind x.token] := by
  obtain ⟨t, ht⟩ := x
  obtain ⟨reading, hreading, rfl⟩ := Option.map_eq_some_iff.mp ht
  refine ⟨iff_of_true ?_ trivial, fun _ => ?_⟩
  · simp [refusals, Leaf.part, Token.yield, hreading, hkind]
  · simp [items, Leaf.part, Token.yield, hreading, hkind]

theorem Leaf.yields_comment (x : Leaf .comment) : Yields [x.part] True [] := by
  obtain ⟨t, ht⟩ := x
  obtain ⟨reading, hreading, hkind⟩ := Option.map_eq_some_iff.mp ht
  refine ⟨iff_of_true ?_ trivial, fun _ => ?_⟩
  · simp [refusals, Leaf.part, Token.yield, hreading, hkind]
  · simp [items, Leaf.part, Token.yield, hreading, hkind]

theorem yields_leaves (hkind : kind ≠ .comment) (xs : List (Leaf kind)) :
    Yields (xs.map Leaf.part) True (xs.map fun x => .token kind x.token) := by
  have h := (Yields.list (Leaf.yields hkind) xs).congr (by simp : (∀ x ∈ xs, True) ↔ True)
  rwa [← List.map_eq_flatMap] at h

/-! ## Values -/

def TableLine.row? : TableLine → Option Row
  | .row x => some (Node.rowOf x.token)
  | .gap _ => none

/-- The rows below the first. -/
def Table.body (x : Table) : List Row := x.rest.filterMap TableLine.row?

def Table.rows (x : Table) : List Row := Node.rowOf x.first.token :: x.body

def DocString.value (x : DocString) : FeatureFile.DocString where
  location := x.opener.token.location
  contentType :=
    if (Node.textOf x.opener.token).isEmpty then none else some (Node.textOf x.opener.token)
  content := Text.join ['\n'] (x.lines.map fun y => Node.textOf y.token)

def Argument.value : Argument → FeatureFile.Argument
  | .table x => .dataTable { location := x.first.token.location, rows := x.rows }
  | .docString x => .docString x.value

def Step.value (x : Step) : FeatureFile.Step where
  location := x.line.token.location
  keyword := Node.keywordOf x.line.token
  text := Node.textOf x.line.token
  argument := x.argument.map Argument.value

/-- The tags of some lines. -/
def tagValues (xs : List TagLine) : List Tag := xs.flatMap fun x => Node.tagsOf x.line.token

/-- The lines of a description but for the empty ones at the end. -/
def Head.texts (x : Head kind) : List Text :=
  ((x.lines.map fun y => Node.textOf y.token).reverse.dropWhile List.isEmpty).reverse

def Head.value (x : Head kind) : Option Text :=
  if x.lines.isEmpty then none else some (Text.join ['\n'] x.texts)

def Examples.value (x : Examples) : FeatureFile.Examples where
  tags := tagValues x.tags
  location := x.head.title.token.location
  keyword := Node.keywordOf x.head.title.token
  name := Node.textOf x.head.title.token
  description := x.head.value
  table := x.table.map fun t => { header := Node.rowOf t.first.token, body := t.body }

def Background.value (x : Background) : FeatureFile.Background where
  location := x.head.title.token.location
  keyword := Node.keywordOf x.head.title.token
  name := Node.textOf x.head.title.token
  description := x.head.value
  steps := x.steps.map Step.value

def Scenario.value : Scenario → ScenarioDefinition
  | .plain tags head steps => .scenario
    { tags := tagValues tags
      location := head.title.token.location
      keyword := Node.keywordOf head.title.token
      name := Node.textOf head.title.token
      description := head.value
      steps := steps.map Step.value }
  | .outline tags head steps examples => .outline
    { tags := tagValues tags
      location := head.title.token.location
      keyword := Node.keywordOf head.title.token
      name := Node.textOf head.title.token
      description := head.value
      steps := steps.map Step.value
      examples := examples.map Examples.value }

def Feature.value (x : Feature) : FeatureFile.Feature where
  tags := tagValues x.tags
  location := x.head.title.token.location
  language := (x.head.title.token.reading.map Reading.dialect).getD []
  keyword := Node.keywordOf x.head.title.token
  name := Node.textOf x.head.title.token
  description := x.head.value
  background := x.background.map Background.value
  scenarios := x.scenarios.map Scenario.value

def Document.value (x : Document) : FeatureFile.Document where
  feature := x.feature.map Feature.value
  comments := x.tokens.filterMap Token.comment?

/-! ## Validity -/

def Table.Valid (x : Table) : Prop := unevenRow x.rows = none

def DocString.Valid (x : DocString) : Prop :=
  (x.opener.token.reading.bind Reading.text).isSome = true

def Argument.Valid : Argument → Prop
  | .table x => x.Valid
  | .docString x => x.Valid

def Step.Valid (x : Step) : Prop := ∀ y ∈ x.argument, y.Valid

/-- A description has a line that is not empty, if it has any. -/
def Head.Valid (x : Head kind) : Prop := x.lines ≠ [] → x.texts ≠ []

def Examples.Valid (x : Examples) : Prop := x.head.Valid ∧ ∀ t ∈ x.table, t.Valid

def Background.Valid (x : Background) : Prop := x.head.Valid ∧ ∀ y ∈ x.steps, y.Valid

def Scenario.Valid : Scenario → Prop
  | .plain _ head steps => head.Valid ∧ ∀ y ∈ steps, y.Valid
  | .outline _ head steps examples =>
    head.Valid ∧ (∀ y ∈ steps, y.Valid) ∧ ∀ y ∈ examples, y.Valid

def Feature.Valid (x : Feature) : Prop :=
  x.head.Valid ∧ (∀ y ∈ x.background, y.Valid) ∧ ∀ y ∈ x.scenarios, y.Valid

def Document.Valid (x : Document) : Prop := ∀ y ∈ x.feature, y.Valid

/-! ## Items -/

def Gap.items : Gap → List NodeItem
  | .comment _ => []
  | .blank x => [.token .empty x.token]

theorem Gap.yields (x : Gap) : Yields [x.part] True x.items := by
  cases x with
  | comment x => exact x.yields_comment
  | blank x => exact x.yields TokenKind.noConfusion

theorem yields_gaps (xs : List Gap) :
    Yields (xs.map Gap.part) True (xs.flatMap Gap.items) :=
  (Yields.list Gap.yields xs).congr (by simp)

/-- Nothing with that label is among the items. -/
def Lacks (l : Label) (is : List NodeItem) : Prop := ∀ i ∈ is, i.label ≠ l

variable {l : Label} {is js : List NodeItem}

@[simp] theorem lacks_nil : Lacks l [] := fun _ h => by cases h

@[simp] theorem lacks_cons {i : NodeItem} : Lacks l (i :: is) ↔ i.label ≠ l ∧ Lacks l is :=
  List.forall_mem_cons

@[simp] theorem lacks_append : Lacks l (is ++ js) ↔ Lacks l is ∧ Lacks l js := List.forall_mem_append

@[simp] theorem lacks_map {α : Type} {f : α → NodeItem} {xs : List α}
    : Lacks l (xs.map f) ↔ ∀ x ∈ xs, (f x).label ≠ l := List.forall_mem_map

theorem lacks_gaps (hl : l ≠ .token .empty) (xs : List Gap) : Lacks l (xs.flatMap Gap.items) := by
  intro i hi
  obtain ⟨x, _, hx⟩ := List.mem_flatMap.mp hi
  cases x with
  | comment x => cases hx
  | blank x =>
      rw [List.mem_singleton.mp hx]
      exact hl.symm

theorem Lacks.find? (h : Lacks l is) : is.find? (fun i => i.label == l) = none :=
  List.find?_eq_none.mpr fun i hi => by simpa using h i hi

theorem Lacks.first (h : Lacks l is) (r : Rule) :
    Node.first { rule := r, items := is ++ js } l = Node.first { rule := r, items := js } l := by
  rw [Node.first, List.find?_append, h.find?]
  rfl

/-- The token of that kind that an item is, if it is one. -/
def tokenOf? (kind : TokenKind) : NodeItem → Option Token
  | .token k t => if k = kind then some t else none
  | _ => none

/-- Items that are tokens are looked up by their kind. -/
theorem tokensOf_eq (h : ∀ i ∈ is, ∃ k t, i = .token k t) :
    Node.tokensOf kind is = .ok (is.filterMap (tokenOf? kind)) := by
  induction is with
  | nil => rfl
  | cons i is ih =>
      obtain ⟨k, t, rfl⟩ := h i List.mem_cons_self
      have hrest := ih fun j hj => h j (List.mem_cons_of_mem _ hj)
      by_cases hk : k = kind
      · simp [Node.tokensOf, NodeItem.label, hk, hrest, tokenOf?, Except.map]
      · simp [Node.tokensOf, NodeItem.label, hk, hrest, tokenOf?]

/-! ## Tables and doc strings -/

def TableLine.items : TableLine → List NodeItem
  | .row x => [.token .tableRow x.token]
  | .gap x => x.items

def Table.items (x : Table) : List NodeItem :=
  .token .tableRow x.first.token :: x.rest.flatMap TableLine.items

theorem Table.yields_parts (x : Table) : Yields x.parts True x.items := by
  have hline : ∀ y : TableLine, Yields [y.part] True y.items := by
    intro y
    cases y with
    | row y => exact y.yields TokenKind.noConfusion
    | gap y => exact y.yields
  exact (x.first.yields TokenKind.noConfusion).behind
    ((Yields.list hline x.rest).congr (by simp))

theorem Gap.items_token {x : Gap} : ∀ i ∈ x.items, ∃ k t, i = .token k t := by
  cases x with
  | comment x => simp [Gap.items]
  | blank x => simp [Gap.items]

theorem Gap.filterMap_items (hkind : kind ≠ .empty) (x : Gap) :
    x.items.filterMap (tokenOf? kind) = [] := by
  cases x with
  | comment x => rfl
  | blank x => simp [Gap.items, tokenOf?, hkind.symm]

theorem Table.rows_items (r : Rule) (x : Table) :
    Node.rows { rule := r, items := x.items } =
      match unevenRow x.rows with
      | some e => .error (.error e)
      | none => .ok x.rows := by
  have htokens : ∀ i ∈ x.items, ∃ k t, i = .token k t := by
    intro i hi
    rcases List.mem_cons.mp hi with rfl | hi
    · exact ⟨_, _, rfl⟩
    · obtain ⟨y, _, hy⟩ := List.mem_flatMap.mp hi
      cases y with
      | row y => exact ⟨_, _, List.mem_singleton.mp hy⟩
      | gap y => exact Gap.items_token i hy
  have hrest : ((x.rest.flatMap TableLine.items).filterMap (tokenOf? .tableRow)).map Node.rowOf =
      x.body := by
    rw [Table.body]
    induction x.rest with
    | nil => rfl
    | cons y ys ih =>
        rw [List.flatMap_cons, List.filterMap_append, List.map_append, ih]
        cases y with
        | row y => rfl
        | gap y =>
            rw [TableLine.items, y.filterMap_items TokenKind.noConfusion]
            rfl
  have hrows : (x.items.filterMap (tokenOf? .tableRow)).map Node.rowOf = x.rows :=
    congrArg (Node.rowOf x.first.token :: ·) hrest
  cases huneven : unevenRow x.rows <;>
    simp only [Node.rows, Node.tokens, tokensOf_eq htokens, Except.mapError, bind, Except.bind, hrows,
      huneven]

/-- A node that is made from its rows and refused with them: the rows have to be of one length. -/
theorem Table.yields_node (x : Table) {r : Rule} {item : NodeItem}
    (hok : Node.rows ⟨r, x.items⟩ = .ok x.rows → Node.toItem ⟨r, x.items⟩ = .ok item)
    (herror : ∀ e, Node.rows ⟨r, x.items⟩ = .error e → Node.toItem ⟨r, x.items⟩ = .error e) :
    Yields [.node r x.parts] x.Valid [item] := by
  have hrows := x.rows_items r
  refine (x.yields_parts.node (q := x.Valid) (fun h => hok ?_) fun _ i hi => ?_).congr
    (by rw [true_and])
  · rwa [show unevenRow x.rows = none from h] at hrows
  · cases huneven : unevenRow x.rows with
    | none => exact huneven
    | some e =>
        rw [huneven] at hrows
        cases hi.symm.trans (herror _ hrows)

theorem Table.yields_dataTable (x : Table) :
    Yields [.node .dataTable x.parts] x.Valid
      [.dataTable { location := x.first.token.location, rows := x.rows }] := by
  refine x.yields_node (fun h => ?_) fun e h => ?_
  · simp only [Node.toItem, Node.toDataTable, h]
    rfl
  · simp only [Node.toItem, Node.toDataTable, h]
    rfl

theorem Table.yields_examplesTable (x : Table) :
    Yields [.node .examplesTable x.parts] x.Valid
      [.examplesTable { header := Node.rowOf x.first.token, body := x.body }] := by
  refine x.yields_node (fun h => ?_) fun e h => ?_
  · simp only [Node.toItem, Node.toExamplesTable, h]
    rfl
  · simp only [Node.toItem, Node.toExamplesTable, h]
    rfl

theorem filterMap_leaves (xs : List (Leaf kind)) :
    (xs.map fun x => NodeItem.token kind x.token).filterMap (tokenOf? kind) =
      xs.map Leaf.token := by
  simp [List.filterMap_map, Function.comp_def, tokenOf?]

theorem filterMap_gaps (hkind : kind ≠ .empty) (xs : List Gap) :
    (xs.flatMap Gap.items).filterMap (tokenOf? kind) = [] := by
  rw [List.filterMap_eq_nil_iff]
  intro i hi
  obtain ⟨x, _, hx⟩ := List.mem_flatMap.mp hi
  exact List.filterMap_eq_nil_iff.mp (x.filterMap_items hkind) i hx

/-- A doc string becomes one, if its opening separator has a text. -/
theorem DocString.yields (x : DocString) :
    Yields [.node .docString x.parts] x.Valid [.docString x.value] := by
  have hparts : Yields x.parts True (.token .docStringSeparator x.opener.token ::
      (x.lines.map (fun y => .token .other y.token) ++
        .token .docStringSeparator x.closer.token :: x.gaps.flatMap Gap.items)) :=
    (x.opener.yields TokenKind.noConfusion).behind ((yields_leaves TokenKind.noConfusion _).behind
      ((x.closer.yields TokenKind.noConfusion).behind (yields_gaps x.gaps)))
  generalize hitems : NodeItem.token .docStringSeparator x.opener.token :: _ = is at hparts
  have hfirst : Node.first { rule := .docString, items := is } (.token .docStringSeparator) =
      some (.token .docStringSeparator x.opener.token) := by
    rw [← hitems]
    rfl
  have hlines : Node.tokens { rule := .docString, items := is } .other =
      .ok (x.lines.map Leaf.token) := by
    have htokens : ∀ i ∈ is, ∃ k t, i = NodeItem.token k t := by
      rw [← hitems]
      intro i hi
      simp only [List.mem_cons, List.mem_append, List.mem_map, List.mem_flatMap] at hi
      rcases hi with rfl | ⟨y, _, rfl⟩ | rfl | ⟨y, _, hy⟩
      · exact ⟨_, _, rfl⟩
      · exact ⟨_, _, rfl⟩
      · exact ⟨_, _, rfl⟩
      · exact Gap.items_token i hy
    rw [Node.tokens, tokensOf_eq htokens, ← hitems, List.filterMap_cons_none rfl,
      List.filterMap_append, filterMap_leaves, List.filterMap_cons_none rfl,
      filterMap_gaps TokenKind.noConfusion, List.append_nil]
  refine (hparts.node (q := x.Valid) (fun h => ?_) fun _ i hi => ?_).congr (by rw [true_and])
  · obtain ⟨text, htext⟩ := Option.isSome_iff_exists.mp h
    have htext' : Node.textOf x.opener.token = text := by rw [Node.textOf, htext]; rfl
    simp only [Node.toItem, Node.toDocString, hfirst, htext, hlines, DocString.value, htext', bind,
      Except.bind, Except.map, Except.mapError, List.map_map, Function.comp_def]
  · simp only [Node.toItem, Node.toDocString, hfirst] at hi
    cases htext : x.opener.token.reading.bind Reading.text with
    | none =>
        rw [htext] at hi
        cases hi
    | some text => exact Option.isSome_iff_exists.mpr ⟨text, htext⟩

/-! ## Steps -/

def Argument.item : Argument → NodeItem
  | .table x => .dataTable { location := x.first.token.location, rows := x.rows }
  | .docString x => .docString x.value

theorem Argument.yields (x : Argument) : Yields [x.part] x.Valid [x.item] := by
  cases x with
  | table x => exact x.yields_dataTable
  | docString x => exact x.yields

/-- The items of a step but for its argument. -/
def Step.lineItems (x : Step) : List NodeItem :=
  .token .stepLine x.line.token :: x.gaps.flatMap Gap.items

theorem Step.argument_items (x : Step) :
    Node.argument? ⟨.step, x.lineItems ++ x.argument.toList.map Argument.item⟩ =
      x.argument.map Argument.value := by
  have hlacks : ∀ r, Lacks (.rule r) x.lineItems := fun r =>
    lacks_cons.mpr ⟨Label.noConfusion, lacks_gaps Label.noConfusion _⟩
  rw [Node.argument?, (hlacks _).first, (hlacks _).first]
  cases x.argument with
  | none => rfl
  | some y => cases y <;> rfl

theorem Step.yields (x : Step) : Yields [x.part] x.Valid [.step x.value] := by
  have hargument : Yields (x.argument.toList.map Argument.part) x.Valid
      (x.argument.toList.map Argument.item) := by
    have h := Yields.list Argument.yields x.argument.toList
    rw [← List.map_eq_flatMap] at h
    exact h.congr (by simp [Step.Valid])
  have hline : Yields (x.line.part :: x.gaps.map Gap.part) True x.lineItems :=
    (x.line.yields TokenKind.noConfusion).behind (yields_gaps x.gaps)
  refine (hline.behind hargument).node_ok ?_
  have hfirst : Node.token ⟨.step, x.lineItems ++ x.argument.toList.map Argument.item⟩ .stepLine =
      .ok x.line.token := rfl
  simp only [Node.toItem, Node.toStep, hfirst, x.argument_items, bind, Except.bind, Except.map,
    Except.mapError, Step.value]

/-! ## Heads -/

/-- The items of comments behind a head. -/
def Head.remarkItems (x : Head kind) : List NodeItem :=
  x.remarks.elim [] fun r => r.2.flatMap Gap.items

def Head.items (x : Head kind) : List NodeItem :=
  .token kind x.title.token :: (x.blanks.map (fun y => .token .empty y.token) ++
    (x.value.toList.map .description ++ x.remarkItems))

theorem Head.toItem_description (x : Head kind) :
    Node.toItem ⟨.description, x.lines.map fun y => .token .other y.token⟩ =
      if x.texts.isEmpty then .error (.fault .blankDescription)
      else .ok (.description (Text.join ['\n'] x.texts)) := by
  have hlines : Node.tokens ⟨.description, x.lines.map fun y => .token .other y.token⟩ .other =
      .ok (x.lines.map Leaf.token) := by
    rw [Node.tokens, tokensOf_eq, filterMap_leaves]
    intro i hi
    obtain ⟨y, _, rfl⟩ := List.mem_map.mp hi
    exact ⟨_, _, rfl⟩
  have htexts : (((x.lines.map Leaf.token).map Node.textOf).reverse.dropWhile List.isEmpty).reverse =
      x.texts := by
    rw [List.map_map]
    rfl
  simp only [Node.toItem, Node.toDescription, hlines, bind, Except.bind, htexts]
  cases x.texts <;> rfl

/-- A description becomes its lines, if one of them is not empty. -/
theorem Head.yields_description (x : Head kind) :
    Yields x.description x.Valid (x.value.toList.map .description) := by
  by_cases hx : x.lines = []
  · rw [Head.description, Head.value, hx]
    exact Yields.nil.congr (iff_of_true trivial fun h => absurd hx h)
  · have hlines : Yields [.node .description (x.lines.map Leaf.part)] (True ∧ x.Valid)
        [.description (Text.join ['\n'] x.texts)] :=
      (yields_leaves TokenKind.noConfusion x.lines).node
      (fun h => by rw [x.toItem_description, if_neg (by simpa using h hx)])
      (fun _ i hi _ htexts => by rw [x.toItem_description, htexts] at hi; cases hi)
    rw [Head.description, Head.value, if_neg (by simpa using hx), if_neg (by simpa using hx)]
    exact hlines.congr (by rw [true_and])

theorem Head.yields (hkind : kind ≠ .comment) (x : Head kind) :
    Yields x.parts x.Valid x.items := by
  have hremarks : Yields (x.remarks.elim [] fun r => r.1.part :: r.2.map Gap.part) True
      x.remarkItems := by
    rw [Head.remarkItems]
    cases x.remarks with
    | none => exact Yields.nil
    | some r => exact r.1.yields_comment.behind (yields_gaps r.2)
  exact (x.title.yields hkind).behind ((yields_leaves TokenKind.noConfusion x.blanks).behind
    (x.yields_description.before hremarks))

theorem Head.lacks (x : Head kind) {l : Label} (hkind : l ≠ .token kind) (hempty : l ≠ .token .empty)
    (hdescription : l ≠ .rule .description) : Lacks l x.items := by
  have hremarks : Lacks l x.remarkItems := by
    rw [Head.remarkItems]
    cases x.remarks with
    | none => exact lacks_nil
    | some r => exact lacks_gaps hempty _
  simp only [Head.items, lacks_cons, lacks_append, lacks_map]
  exact ⟨hkind.symm, fun _ _ => hempty.symm, fun _ _ => hdescription.symm, hremarks⟩

/-- The description is found behind its title. -/
theorem Head.description_items (x : Head kind) (r : Rule) {is : List NodeItem}
    (h : Lacks (.rule .description) is) : Node.description? ⟨r, x.items ++ is⟩ = x.value := by
  have hfront : Lacks (.rule .description)
      (.token kind x.title.token :: x.blanks.map fun y => .token .empty y.token) := by
    simp only [lacks_cons, lacks_map]
    exact ⟨Label.noConfusion, fun _ _ => Label.noConfusion⟩
  have hitems : x.items ++ is = (.token kind x.title.token ::
      x.blanks.map fun y => NodeItem.token .empty y.token) ++
        (x.value.toList.map .description ++ (x.remarkItems ++ is)) := by
    simp [Head.items]
  rw [Node.description?, hitems, hfront.first]
  cases x.value with
  | some d => rfl
  | none =>
      have hback : Lacks (.rule .description) (x.remarkItems ++ is) := by
        rw [lacks_append, Head.remarkItems]
        refine ⟨?_, h⟩
        cases x.remarks with
        | none => exact lacks_nil
        | some r => exact lacks_gaps Label.noConfusion _
      rw [Node.first, Option.toList_none, List.map_nil, List.nil_append, hback.find?]

/-! ## Tags -/

def TagLine.items (x : TagLine) : List NodeItem :=
  .token .tagLine x.line.token :: x.gaps.flatMap Gap.items

def tagItems (xs : List TagLine) : List NodeItem :=
  if xs.isEmpty then [] else [.node .tags (xs.flatMap TagLine.items)]

theorem yields_tags (xs : List TagLine) : Yields (tagParts xs) True (tagItems xs) := by
  have hlines : Yields (xs.flatMap TagLine.parts) True (xs.flatMap TagLine.items) := by
    induction xs with
    | nil => exact Yields.nil
    | cons x xs ih =>
        exact ((x.line.yields TokenKind.noConfusion).behind (yields_gaps x.gaps)).behind ih
  unfold tagParts tagItems
  split
  · exact Yields.nil
  · exact hlines.node_ok rfl

theorem lacks_tagItems {l : Label} (hl : l ≠ .rule .tags) (xs : List TagLine) :
    Lacks l (tagItems xs) := by
  unfold tagItems
  split
  · exact lacks_nil
  · exact lacks_cons.mpr ⟨hl.symm, lacks_nil⟩

theorem tags_items (r : Rule) {is js : List NodeItem} (his : Lacks (.rule .tags) is)
    (hjs : Lacks (.rule .tags) js) (xs : List TagLine) :
    Node.tags ⟨r, is ++ (tagItems xs ++ js)⟩ = .ok (tagValues xs) := by
  rw [Node.tags, Node.child?, his.first]
  cases xs with
  | nil =>
      rw [Node.first, tagItems, if_pos List.isEmpty_nil, List.nil_append, hjs.find?]
      rfl
  | cons x xs =>
      have htokens : ∀ i ∈ (x :: xs).flatMap TagLine.items, ∃ k t, i = .token k t := by
        intro i hi
        obtain ⟨y, _, hy⟩ := List.mem_flatMap.mp hi
        rcases List.mem_cons.mp hy with rfl | hy
        · exact ⟨_, _, rfl⟩
        · obtain ⟨z, _, hz⟩ := List.mem_flatMap.mp hy
          exact Gap.items_token i hz
      have hlines : ∀ ys : List TagLine, (ys.flatMap TagLine.items).filterMap (tokenOf? .tagLine) =
          ys.map fun y => y.line.token := by
        intro ys
        induction ys with
        | nil => rfl
        | cons y ys ih =>
            have hline : tokenOf? .tagLine (.token .tagLine y.line.token) = some y.line.token := rfl
            rw [List.flatMap_cons, List.filterMap_append, ih, TagLine.items,
              List.filterMap_cons_some hline, filterMap_gaps TokenKind.noConfusion]
            rfl
      have hnode : Node.tokens ⟨.tags, (x :: xs).flatMap TagLine.items⟩ .tagLine =
          .ok ((x :: xs).map fun y => y.line.token) := by
        rw [Node.tokens, tokensOf_eq htokens, hlines]
      have hfirst : Node.first ⟨r, tagItems (x :: xs) ++ js⟩ (.rule .tags) =
          some (.node .tags ((x :: xs).flatMap TagLine.items)) := rfl
      simp only [hfirst, hnode, Except.map, tagValues, List.flatMap_map]

/-! ## Blocks -/

theorem steps_append (r : Rule) (is js : List NodeItem) :
    Node.steps ⟨r, is ++ js⟩ = Node.steps ⟨r, is⟩ ++ Node.steps ⟨r, js⟩ := List.filterMap_append

theorem Lacks.steps {is : List NodeItem} (h : Lacks (.rule .step) is) (r : Rule) :
    Node.steps ⟨r, is⟩ = [] := by
  refine List.filterMap_eq_nil_iff.mpr fun i hi => ?_
  cases i <;> first | rfl | exact absurd rfl (h _ hi)

theorem steps_map (r : Rule) (xs : List Step) :
    Node.steps ⟨r, xs.map fun x => .step x.value⟩ = xs.map Step.value := by
  simp [Node.steps, List.filterMap_map]

theorem yields_steps (xs : List Step) :
    Yields (xs.map Step.part) (∀ x ∈ xs, x.Valid) (xs.map fun x => .step x.value) := by
  have h := Yields.list Step.yields xs
  rwa [← List.map_eq_flatMap] at h

theorem lacks_steps {l : Label} (hl : l ≠ .rule .step) (xs : List Step) :
    Lacks l (xs.map fun x => .step x.value) := lacks_map.mpr fun _ _ => hl.symm

/-- The steps behind a head. -/
theorem Head.steps_items (x : Head kind) (r : Rule) (xs : List Step)
    {is : List NodeItem} (his : Lacks (.rule .step) is) :
    Node.steps ⟨r, x.items ++ (xs.map (fun y => .step y.value) ++ is)⟩ = xs.map Step.value := by
  have hhead : Lacks (.rule .step) x.items := x.lacks (by simp) (by simp) (by simp)
  rw [steps_append, hhead.steps, steps_append, steps_map, his.steps, List.append_nil]
  rfl

theorem Background.yields (x : Background) :
    Yields [x.part] x.Valid [.background x.value] := by
  have hparts := (x.head.yields TokenKind.noConfusion).append (yields_steps x.steps)
  refine hparts.node_ok ?_
  have hline : Node.token ⟨.background, x.head.items ++ x.steps.map fun y => .step y.value⟩
      .backgroundLine = .ok x.head.title.token := rfl
  have hdescription := x.head.description_items .background (lacks_steps (by simp) x.steps)
  have hsteps := x.head.steps_items .background x.steps lacks_nil
  rw [List.append_nil] at hsteps
  simp only [Node.toItem, Node.toBackground, hline, hdescription, hsteps, bind, Except.bind,
    Except.map, Except.mapError, Background.value]

/-- What is looked up among the items of a definition: its tags, and the rule of what is defined. -/
theorem definition_items (r : Rule) {i : Rule} (hi : i.label = .rule i) (hne : i ≠ .tags)
    (xs : List TagLine) (is : List NodeItem) :
    Node.tags ⟨r, tagItems xs ++ [.node i is]⟩ = .ok (tagValues xs) ∧
      Node.child? ⟨r, tagItems xs ++ [.node i is]⟩ i = some ⟨i, is⟩ ∧
      ∀ j, j ≠ .tags → j ≠ i → Node.child? ⟨r, tagItems xs ++ [.node i is]⟩ j = none := by
  have hlabel : (NodeItem.node i is).label = .rule i := hi
  have hlacks : ∀ j, j ≠ i → Lacks (.rule j) [.node i is] := fun j hj =>
    lacks_cons.mpr ⟨by rw [hlabel]; simpa using hj.symm, lacks_nil⟩
  refine ⟨tags_items r lacks_nil (hlacks _ hne.symm) xs, ?_, fun j htags hj => ?_⟩
  · rw [Node.child?, (lacks_tagItems (by simpa using hne) xs).first, Node.first,
      List.find?_cons_of_pos (by rw [hlabel]; simp)]
  · rw [Node.child?, (lacks_tagItems (by simpa using htags) xs).first, Node.first, (hlacks j hj).find?]

/-- The items of a table of examples. -/
def Examples.tableItems (x : Examples) : List NodeItem := x.table.toList.map fun t =>
  .examplesTable { header := Node.rowOf t.first.token, body := t.body }

theorem Examples.yields (x : Examples) : Yields [x.part] x.Valid [.examples x.value] := by
  have htable : Yields (x.table.toList.map fun t => .node .examplesTable t.parts)
      (∀ t ∈ x.table, t.Valid) x.tableItems := by
    have h := Yields.list Table.yields_examplesTable x.table.toList
    rw [← List.map_eq_flatMap] at h
    exact h.congr (by simp)
  have hbody := ((x.head.yields TokenKind.noConfusion).append htable).node_ok (r := .examples) rfl
  refine ((yields_tags x.tags).behind hbody).node_ok ?_
  obtain ⟨htags, hchild, _⟩ := definition_items .examplesDefinition (i := .examples) (by decide)
    Rule.noConfusion x.tags (x.head.items ++ x.tableItems)
  have hline : Node.token ⟨.examples, x.head.items ++ x.tableItems⟩ .examplesLine =
      .ok x.head.title.token := rfl
  have hlacks : Lacks (.rule .description) x.tableItems := lacks_map.mpr fun _ _ h => by cases h
  have hdescription := x.head.description_items .examples hlacks
  have hhead : Lacks (.rule .examplesTable) x.head.items :=
    x.head.lacks (by simp) (by simp) (by simp)
  simp only [Node.toItem, Node.toExamples, htags, hchild, hline, hdescription, hhead.first, bind,
    Except.bind, Except.map, Except.mapError, Examples.value]
  rw [Examples.tableItems]
  cases x.table <;> rfl

theorem yields_examples (xs : List Examples) :
    Yields (xs.map Examples.part) (∀ x ∈ xs, x.Valid) (xs.map fun x => .examples x.value) := by
  have h := Yields.list Examples.yields xs
  rwa [← List.map_eq_flatMap] at h

theorem Head.examples_items (x : Head kind) (r : Rule) (ys : List Step) (xs : List Examples) :
    Node.examples ⟨r, x.items ++ (ys.map (fun y => .step y.value) ++
      xs.map fun x => .examples x.value)⟩ = xs.map Examples.value := by
  have hhead : Lacks (.rule .examplesDefinition) x.items := x.lacks (by simp) (by simp) (by simp)
  have hfront : ∀ is, Lacks (.rule .examplesDefinition) is → Node.examples ⟨r, is⟩ = [] := by
    intro is h
    refine List.filterMap_eq_nil_iff.mpr fun i hi => ?_
    cases i <;> first | rfl | exact absurd rfl (h _ hi)
  have hmap : Node.examples ⟨r, xs.map fun x => .examples x.value⟩ = xs.map Examples.value := by
    simp [Node.examples, List.filterMap_map]
  rw [← List.append_assoc]
  refine List.filterMap_append.trans ?_
  have h := hfront _ (lacks_append.mpr ⟨hhead, lacks_steps (by simp) ys⟩)
  rw [Node.examples] at h hmap
  rw [h, hmap, List.nil_append]

theorem Scenario.yields (x : Scenario) :
    Yields [x.part] x.Valid [.scenarioDefinition x.value] := by
  cases x with
  | plain tags head steps =>
      have hbody := ((head.yields TokenKind.noConfusion).append (yields_steps steps)).node_ok
        (r := .scenario) rfl
      refine ((yields_tags tags).behind hbody).node_ok ?_
      obtain ⟨htags, hchild, _⟩ := definition_items .scenarioDefinition (i := .scenario) (by decide)
        Rule.noConfusion tags (head.items ++ steps.map fun y => .step y.value)
      have hline : Node.token ⟨.scenario, head.items ++ steps.map fun y => .step y.value⟩
          .scenarioLine = .ok head.title.token := rfl
      have hdescription := head.description_items .scenario (lacks_steps (by simp) steps)
      have hsteps := head.steps_items .scenario steps lacks_nil
      rw [List.append_nil] at hsteps
      simp only [Node.toItem, Node.toScenarioDefinition, htags, hchild, hline, hdescription, hsteps,
        bind, Except.bind, Except.map, Except.mapError, Scenario.value]
  | outline tags head steps examples =>
      have hbody := ((head.yields TokenKind.noConfusion).append
        ((yields_steps steps).append (yields_examples examples))).node_ok (r := .scenarioOutline) rfl
      refine ((yields_tags tags).behind hbody).node_ok ?_
      obtain ⟨htags, hchild, hother⟩ := definition_items .scenarioDefinition (i := .scenarioOutline)
        (by decide) Rule.noConfusion tags (head.items ++ (steps.map (fun y => .step y.value) ++
          examples.map fun y => .examples y.value))
      have hscenario := hother .scenario Rule.noConfusion Rule.noConfusion
      have hline : Node.token ⟨.scenarioOutline, head.items ++ (steps.map (fun y => .step y.value) ++
          examples.map fun y => .examples y.value)⟩ .scenarioOutlineLine = .ok head.title.token := rfl
      have hlacks : ∀ l, l ≠ .rule .examplesDefinition →
          Lacks l (examples.map fun y => .examples y.value) :=
        fun l hl => lacks_map.mpr fun _ _ => hl.symm
      have hdescription := head.description_items .scenarioOutline
        (lacks_append.mpr ⟨lacks_steps (by simp) steps, hlacks _ (by simp)⟩)
      have hsteps := head.steps_items .scenarioOutline steps (hlacks _ (by simp))
      have hexamples := head.examples_items .scenarioOutline steps examples
      simp only [Node.toItem, Node.toScenarioDefinition, htags, hchild, hscenario, hline,
        hdescription, hsteps, hexamples, bind, Except.bind, Except.map, Except.mapError,
        Scenario.value]

/-! ## The document -/

/-- The items of a language header. -/
def Feature.languageItems (x : Feature) : List NodeItem :=
  x.header.elim [] fun h => .token .language h.1.token :: h.2.flatMap Gap.items

theorem Feature.lacks_languageItems {l : Label} (hlanguage : l ≠ .token .language)
    (hempty : l ≠ .token .empty) (x : Feature) : Lacks l x.languageItems := by
  rw [languageItems]
  cases x.header with
  | none => exact lacks_nil
  | some h => exact lacks_cons.mpr ⟨hlanguage.symm, lacks_gaps hempty _⟩

def Feature.headerItems (x : Feature) : List NodeItem :=
  x.languageItems ++ (tagItems x.tags ++ x.head.items)

theorem Feature.yields_header (x : Feature) :
    Yields (x.headerParts ++ x.head.parts) x.head.Valid x.headerItems := by
  have hlanguage : Yields (x.header.elim [] fun h => h.1.part :: h.2.map Gap.part) True
      x.languageItems := by
    rw [languageItems]
    cases x.header with
    | none => exact Yields.nil
    | some h => exact (h.1.yields TokenKind.noConfusion).behind (yields_gaps h.2)
  have h := hlanguage.behind
    ((yields_tags x.tags).behind (x.head.yields TokenKind.noConfusion))
  rwa [← List.append_assoc] at h

/-- What is looked up in the header of a feature. -/
theorem Feature.header_items (x : Feature) :
    Node.tags ⟨.featureHeader, x.headerItems⟩ = .ok (tagValues x.tags) ∧
      Node.first ⟨.featureHeader, x.headerItems⟩ (.token .featureLine) =
        some (.token .featureLine x.head.title.token) ∧
      Node.description? ⟨.featureHeader, x.headerItems⟩ = x.head.value := by
  refine ⟨?_, ?_, ?_⟩
  · exact tags_items _ (x.lacks_languageItems (by simp) (by simp))
      (x.head.lacks (by simp) (by simp) (by simp)) x.tags
  · rw [headerItems, (x.lacks_languageItems (by simp) (by simp)).first,
      (lacks_tagItems (by simp) x.tags).first]
    rfl
  · have hdescription := x.head.description_items .featureHeader lacks_nil
    rw [List.append_nil] at hdescription
    rw [Node.description?, headerItems, (x.lacks_languageItems (by simp) (by simp)).first,
      (lacks_tagItems (by simp) x.tags).first, ← hdescription, Node.description?]

/-- The items of a feature behind its header. -/
def Feature.bodyItems (x : Feature) : List NodeItem :=
  x.background.toList.map (fun y => .background y.value) ++
    x.scenarios.map fun y => .scenarioDefinition y.value

theorem Feature.body_items (x : Feature) (is : List NodeItem) :
    Node.background? ⟨.feature, .node .featureHeader is :: x.bodyItems⟩ =
        x.background.map Background.value ∧
      Node.scenarios ⟨.feature, .node .featureHeader is :: x.bodyItems⟩ =
        x.scenarios.map Scenario.value := by
  have hheader : Lacks (.rule .background) [.node .featureHeader is] :=
    lacks_cons.mpr ⟨fun h => absurd h (by decide : Rule.featureHeader.label ≠ _), lacks_nil⟩
  refine ⟨?_, ?_⟩
  · rw [Node.background?, ← List.singleton_append, hheader.first, bodyItems]
    cases x.background with
    | some y => rfl
    | none =>
        have hscenarios : Lacks (.rule .background)
            (x.scenarios.map fun y => .scenarioDefinition y.value) :=
          lacks_map.mpr fun _ _ h => by cases h
        rw [Node.first, Option.toList_none, List.map_nil, List.nil_append, hscenarios.find?]
        rfl
  · rw [bodyItems, Node.scenarios]
    cases x.background <;> simp [List.filterMap_map]

theorem Feature.yields (x : Feature) : Yields [x.part] x.Valid [.feature (some x.value)] := by
  have hbackground : Yields (x.background.toList.map Background.part) (∀ y ∈ x.background, y.Valid)
      (x.background.toList.map fun y => .background y.value) := by
    have h := Yields.list Background.yields x.background.toList
    rw [← List.map_eq_flatMap] at h
    exact h.congr (by simp)
  have hscenarios := Yields.list Scenario.yields x.scenarios
  rw [← List.map_eq_flatMap] at hscenarios
  have hheader := x.yields_header.node_ok (r := .featureHeader) rfl
  refine (hheader.append (hbackground.append hscenarios)).node_ok ?_
  obtain ⟨htags, hline, hdescription⟩ := x.header_items
  obtain ⟨hback, hscen⟩ := x.body_items x.headerItems
  have hchild : Node.child? ⟨.feature, .node .featureHeader x.headerItems :: x.bodyItems⟩
      .featureHeader = some ⟨.featureHeader, x.headerItems⟩ := rfl
  change Node.toItem ⟨.feature, .node .featureHeader x.headerItems :: x.bodyItems⟩ = _
  simp only [Node.toItem, Node.toFeature, hchild, htags, hline, hdescription, hback, hscen, bind,
    Except.bind, Except.map, Except.mapError, Feature.value]

def Document.items (x : Document) : List NodeItem :=
  x.gaps.flatMap Gap.items ++ (x.feature.toList.map (fun y => .feature (some y.value)) ++
    [.token .eof x.eof.token])

theorem Document.yields (x : Document) : Yields x.parts x.Valid x.items := by
  have hfeature : Yields (x.feature.toList.map Feature.part) x.Valid
      (x.feature.toList.map fun y => .feature (some y.value)) := by
    have h := Yields.list Feature.yields x.feature.toList
    rw [← List.map_eq_flatMap] at h
    exact h.congr (by simp [Document.Valid])
  exact (yields_gaps x.gaps).behind (hfeature.before (x.eof.yields TokenKind.noConfusion))

theorem Document.feature_items (x : Document) :
    Node.feature? ⟨.document, x.items⟩ = x.feature.map Feature.value := by
  rw [Node.feature?, Document.items, (lacks_gaps (by simp) _).first]
  cases x.feature <;> rfl

end Layout

/-! ## The builder -/

namespace DocumentBuilder

/-- A builder that is told the parts of a layout in an open document refuses nothing if the layout
is valid, and has its value then when the document is closed. -/
theorem feed_layout (x : Layout.Document) {b : DocumentBuilder}
    (hb : b = { stack := [{ rule := .document }, { rule := .root }] }) :
    ((Builder.feed (Part.callsAll x.parts) b).2 = [] ↔ x.Valid) ∧
      (x.Valid → Builder.result (Builder.receive (.closed .document)
        (Builder.feed (Part.callsAll x.parts) b).1).1 = .ok (some x.value)) := by
  subst hb
  rw [feed_callsAll x.parts _ (List.cons_ne_nil _ _)]
  refine ⟨x.yields.refusals_iff, fun hvalid => ?_⟩
  have hitems : (Part.yieldAll x.parts).items = x.items := x.yields.items_eq hvalid
  have hcomments : (Part.yieldAll x.parts).comments = x.tokens.filterMap Token.comment? :=
    Part.yieldAll_comments x.parts
  simp only [gain, hitems, hcomments, Builder.receive, receive, close, Node.toItem,
    List.nil_append, x.feature_items]
  rfl

end DocumentBuilder

end FeatureFile
