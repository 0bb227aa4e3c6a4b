import FeatureFile.Proofs.Structure
import FeatureFile.Proofs.Trimming

/-!
# Every line accounted for

A document knows the line of each of its parts. Walked through in the natural order, tags before what
they belong to and a part before what is in it, a document of an accepted source visits the lines of
the source from top to bottom, and leaves nothing out: every token that announces a part of the
document is visited once, as that part, every line of tags is visited by its tags, and the comments
are kept beside (`Document.AccountsFor`).

The document is the value of a layout, and a layout has its tokens in order. So it is enough to say
of each token which visits it is responsible for (`Token.Owns`), phrase by phrase.
-/

namespace FeatureFile

/-! ## Walking through a document -/

/-- What can be visited in a document. -/
inductive Landmark where
  | feature
  | background
  | scenario
  | outline
  | examples
  | step
  | dataTable
  | row
  | cell
  | docString
  | tag
  | comment
  deriving DecidableEq

/-- A part of a document and the line it stands on. -/
structure Visit where
  what : Landmark
  line : Int
  deriving DecidableEq

/-- Tags and cells share their line with others, and a data table is where its first row is. All else
has a line of its own. -/
def Landmark.isAlone : Landmark → Bool
  | tag | dataTable | cell => false
  | _ => true

def Tag.walk (x : Tag) : List Visit := [⟨.tag, x.location.line⟩]

def Cell.walk (x : Cell) : List Visit := [⟨.cell, x.location.line⟩]

def Row.walk (x : Row) : List Visit := ⟨.row, x.location.line⟩ :: x.cells.flatMap Cell.walk

def Argument.walk : Argument → List Visit
  | .dataTable t => ⟨.dataTable, t.location.line⟩ :: t.rows.flatMap Row.walk
  | .docString d => [⟨.docString, d.location.line⟩]

def Step.walk (x : Step) : List Visit :=
  ⟨.step, x.location.line⟩ :: x.argument.toList.flatMap Argument.walk

def ExamplesTable.walk (x : ExamplesTable) : List Visit := (x.header :: x.body).flatMap Row.walk

def Examples.walk (x : Examples) : List Visit :=
  x.tags.flatMap Tag.walk ++ ⟨.examples, x.location.line⟩ ::
    x.table.toList.flatMap ExamplesTable.walk

def Background.walk (x : Background) : List Visit :=
  ⟨.background, x.location.line⟩ :: x.steps.flatMap Step.walk

def ScenarioDefinition.walk : ScenarioDefinition → List Visit
  | .scenario x =>
    x.tags.flatMap Tag.walk ++ ⟨.scenario, x.location.line⟩ :: x.steps.flatMap Step.walk
  | .outline x =>
    x.tags.flatMap Tag.walk ++ ⟨.outline, x.location.line⟩ ::
      (x.steps.flatMap Step.walk ++ x.examples.flatMap Examples.walk)

def Feature.walk (x : Feature) : List Visit :=
  x.tags.flatMap Tag.walk ++ ⟨.feature, x.location.line⟩ ::
    (x.background.toList.flatMap Background.walk ++ x.scenarios.flatMap ScenarioDefinition.walk)

/-- The parts of a document in their natural order, but for the comments. -/
def Document.walk (d : Document) : List Visit := d.feature.toList.flatMap Feature.walk

def Comment.visit (c : Comment) : Visit := ⟨.comment, c.location.line⟩

/-! ## What tokens announce -/

/-- The part of a document that a token announces. Of the two separators around a doc string it is the
opening one. -/
def TokenKind.landmark? (inside : Bool) : TokenKind → Option Landmark
  | featureLine => some .feature
  | backgroundLine => some .background
  | scenarioLine => some .scenario
  | scenarioOutlineLine => some .outline
  | examplesLine => some .examples
  | stepLine => some .step
  | tableRow => some .row
  | docStringSeparator => if inside then none else some .docString
  | comment => some .comment
  | eof | empty | tagLine | language | other => none

namespace Token

/-- Is a doc string open behind the token? -/
def inside (t : Token) (inside : Bool) : Bool := inside != (t.kind? == some .docStringSeparator)

def landmark? (inside : Bool) (t : Token) : Option Visit :=
  (t.kind?.bind (TokenKind.landmark? inside)).map fun w => ⟨w, t.number⟩

/-- What tokens announce, if a doc string is open in front of them or not. -/
def landmarks : Bool → List Token → List Visit
  | _, [] => []
  | inside, t :: ts => (t.landmark? inside).toList ++ landmarks (t.inside inside) ts

end Token

/-- A document that holds what the tokens announce, once and in order. -/
structure Document.AccountsFor (d : Document) (ts : List Token) : Prop where
  /-- What the tokens announce is there, and nothing else is. -/
  parts : (Token.landmarks false ts).Perm
    (d.walk.filter (·.what.isAlone) ++ d.comments.map Comment.visit)
  /-- No line is announced twice. -/
  once : ((Token.landmarks false ts).map Visit.line).Nodup
  /-- Every line of tags has tags, and all tags are from there. -/
  tags : ∀ n, (∃ v ∈ d.walk, v.what = .tag ∧ v.line = n) ↔
    ∃ t ∈ ts, t.kind? = some .tagLine ∧ t.number = n
  comments : (d.comments.map fun c => c.location.line).Pairwise (· < ·)
  /-- The walk goes down the source. -/
  order : (d.walk.map Visit.line).Pairwise (· ≤ ·)

/-! ## Accounting token by token -/

/-- These are the visits on the line of a token, in front of which a doc string is open or not. -/
structure Token.Owns (inside : Bool) (t : Token) (vs : List Visit) : Prop where
  line : ∀ v ∈ vs, v.line = t.number
  alone : vs.filter (·.what.isAlone) = (t.landmark? inside).toList.filter (·.what ≠ .comment)
  tag : (∃ v ∈ vs, v.what = .tag) ↔ t.kind? = some .tagLine ∧ Node.itemsOf t ≠ []

/-- These are the visits on the lines of the tokens, in their order. The flags tell whether a doc
string is open in front of the tokens and behind them. -/
inductive Accounts : Bool → List Visit → List Token → Bool → Prop where
  | nil (b : Bool) : Accounts b [] [] b
  | cons {b b' : Bool} {vs ws : List Visit} {t : Token} {ts : List Token} (own : t.Owns b vs)
      (rest : Accounts (t.inside b) ws ts b') : Accounts b (vs ++ ws) (t :: ts) b'

namespace Accounts

variable {a b c : Bool} {vs ws : List Visit} {ts us : List Token}

theorem append (h : Accounts a vs ts b) (h' : Accounts b ws us c) :
    Accounts a (vs ++ ws) (ts ++ us) c := by
  induction h with
  | nil b => exact h'
  | cons own _ ih =>
      rw [List.append_assoc]
      exact .cons own (ih h')

theorem one {t : Token} (own : t.Owns a vs) : Accounts a vs [t] (t.inside a) := by
  simpa using Accounts.cons own (.nil _)

/-- Parts of one sort in a row. -/
theorem list {α : Type} {f : α → Part} {g : α → List Visit}
    (h : ∀ x, Accounts a (g x) (f x).tokens a) (xs : List α) :
    Accounts a (xs.flatMap g) (Part.tokensAll (xs.map f)) a := by
  induction xs with
  | nil => exact .nil a
  | cons x xs ih => exact (h x).append ih

theorem alone (h : Accounts a vs ts b) :
    vs.filter (·.what.isAlone) = (Token.landmarks a ts).filter (·.what ≠ .comment) := by
  induction h with
  | nil b => rfl
  | cons own _ ih => rw [List.filter_append, own.alone, ih, Token.landmarks, List.filter_append]

theorem tag (h : Accounts a vs ts b) (n : Int) : (∃ v ∈ vs, v.what = .tag ∧ v.line = n) ↔
    ∃ t ∈ ts, (t.kind? = some .tagLine ∧ Node.itemsOf t ≠ []) ∧ t.number = n := by
  induction h with
  | nil b => simp
  | @cons b b' vs ws t ts own rest ih =>
      have hown : (∃ v ∈ vs, v.what = .tag ∧ v.line = n) ↔
          (t.kind? = some .tagLine ∧ Node.itemsOf t ≠ []) ∧ t.number = n := by
        rw [← own.tag]
        constructor
        · rintro ⟨v, hv, htag, rfl⟩
          exact ⟨⟨v, hv, htag⟩, (own.line v hv).symm⟩
        · rintro ⟨⟨v, hv, htag⟩, rfl⟩
          exact ⟨v, hv, htag, own.line v hv⟩
      rw [List.exists_mem_cons_iff, ← hown, ← ih]
      simp only [List.mem_append, or_and_right, exists_or]

theorem line_mem (h : Accounts a vs ts b) : ∀ v ∈ vs, v.line ∈ ts.map Token.number := by
  induction h with
  | nil b =>
      intro v hv
      cases hv
  | cons own _ ih =>
      intro v hv
      rw [List.map_cons]
      rcases List.mem_append.mp hv with hv | hv
      · rw [own.line v hv]
        exact List.mem_cons_self
      · exact List.mem_cons_of_mem _ (ih v hv)

/-- Visits go down the source if the tokens do. -/
theorem order (h : Accounts a vs ts b) (hts : (ts.map Token.number).Pairwise (· < ·)) :
    (vs.map Visit.line).Pairwise (· ≤ ·) := by
  induction h with
  | nil b => exact List.Pairwise.nil
  | @cons b b' vs ws t ts own rest ih =>
      rw [List.map_cons, List.pairwise_cons] at hts
      rw [List.map_append, List.pairwise_append]
      refine ⟨?_, ih hts.2, ?_⟩
      · rw [List.pairwise_map]
        refine List.Pairwise.imp_of_mem (R := fun _ _ => True) ?_ (List.pairwise_of_forall ?_)
        · intro v w hv hw _
          rw [own.line v hv, own.line w hw]
        · exact fun _ _ => trivial
      · intro m hm n hn
        obtain ⟨v, hv, rfl⟩ := List.mem_map.mp hm
        obtain ⟨w, hw, rfl⟩ := List.mem_map.mp hn
        rw [own.line v hv]
        exact (hts.1 _ (rest.line_mem w hw)).le

end Accounts

/-! ## Phrases -/

namespace Layout

variable {kind : TokenKind} {b : Bool}

@[simp] theorem Leaf.tokens_part (x : Leaf kind) : x.part.tokens = [x.token] := rfl

theorem Leaf.inside (x : Leaf kind) (b : Bool) :
    x.token.inside b = (b != (kind == .docStringSeparator)) := by
  rw [Token.inside, x.kind_eq]
  rfl

/-- A token that announces nothing but may be a comment. -/
theorem Leaf.owns_nil (x : Leaf kind) (htag : kind ≠ .tagLine)
    (hsilent : kind.landmark? b = none ∨ kind = .comment) : x.token.Owns b [] := by
  refine ⟨fun v hv => (by cases hv), ?_, ?_⟩
  · rw [Token.landmark?, x.kind_eq]
    rcases hsilent with h | rfl
    · simp [h]
    · simp [TokenKind.landmark?]
  · rw [x.kind_eq]
    simp [htag]

/-- A token that announces something. -/
theorem Leaf.owns_one (x : Leaf kind) {w : Landmark} (hmark : kind.landmark? b = some w)
    (hcomment : w ≠ .comment) : x.token.Owns b [⟨w, x.token.number⟩] := by
  have hw : w.isAlone = true ∧ w ≠ .tag ∧ kind ≠ .tagLine := by
    cases b <;> cases kind <;> cases hmark <;> decide
  refine ⟨fun v hv => ?_, ?_, iff_of_false ?_ fun h => hw.2.2 ?_⟩
  · rw [List.mem_singleton.mp hv]
  · rw [Token.landmark?, x.kind_eq]
    simp [hmark, hcomment, hw.1]
  · rintro ⟨v, hv, hvtag⟩
    rw [List.mem_singleton.mp hv] at hvtag
    exact hw.2.1 hvtag
  · rw [x.kind_eq] at h
    exact Option.some.inj h.1

/-- Other parts may share the line. -/
theorem surround {t : Token} {vs : List Visit} (h : t.Owns b vs) (front back : List Visit)
    (hshare : ∀ v ∈ front ++ back, v.line = t.number ∧ v.what ≠ .tag ∧ v.what.isAlone = false) :
    t.Owns b (front ++ (vs ++ back)) := by
  rw [List.forall_mem_append] at hshare
  obtain ⟨hfront, hback⟩ := hshare
  refine ⟨?_, ?_, ?_⟩
  · simp only [List.forall_mem_append]
    exact ⟨fun v hv => (hfront v hv).1, h.line, fun v hv => (hback v hv).1⟩
  · have hnone : ∀ us : List Visit, (∀ v ∈ us, v.what.isAlone = false) →
        us.filter (·.what.isAlone) = [] := fun us hus =>
      List.filter_eq_nil_iff.mpr fun v hv => by simp [hus v hv]
    rw [← h.alone, List.filter_append, List.filter_append, hnone front fun v hv => (hfront v hv).2.2,
      hnone back fun v hv => (hback v hv).2.2, List.append_nil]
    rfl
  · rw [← h.tag]
    constructor
    · rintro ⟨v, hv, htag⟩
      rcases List.mem_append.mp hv with hv | hv
      · exact absurd htag (hfront v hv).2.1
      · rcases List.mem_append.mp hv with hv | hv
        · exact ⟨v, hv, htag⟩
        · exact absurd htag (hback v hv).2.1
    · rintro ⟨v, hv, htag⟩
      exact ⟨v, List.mem_append_right _ (List.mem_append_left _ hv), htag⟩

theorem Leaf.accounts_nil (x : Leaf kind) (htag : kind ≠ .tagLine)
    (hsilent : kind.landmark? b = none ∨ kind = .comment) (hsep : kind ≠ .docStringSeparator) :
    Accounts b [] [x.token] b := by
  have h := Accounts.one (x.owns_nil htag hsilent)
  rwa [x.inside, beq_false_of_ne hsep, Bool.bne_false] at h

theorem Leaf.accounts_one (x : Leaf kind) {w : Landmark} (hmark : kind.landmark? b = some w)
    (hcomment : w ≠ .comment) (hsep : kind ≠ .docStringSeparator) :
    Accounts b [⟨w, x.token.number⟩] [x.token] b := by
  have h := Accounts.one (x.owns_one hmark hcomment)
  rwa [x.inside, beq_false_of_ne hsep, Bool.bne_false] at h

theorem Gap.accounts (x : Gap) : Accounts false [] x.part.tokens false := by
  cases x with
  | comment x => exact x.accounts_nil (by decide) (.inr rfl) (by decide)
  | blank x => exact x.accounts_nil (by decide) (.inl rfl) (by decide)

theorem accounts_nil_list {α : Type} {f : α → Part} (h : ∀ x, Accounts b [] (f x).tokens b)
    (xs : List α) : Accounts b [] (Part.tokensAll (xs.map f)) b := by
  have hlist := Accounts.list h xs
  rwa [List.flatMap_eq_nil_iff.mpr fun _ _ => rfl] at hlist

theorem accounts_gaps (xs : List Gap) :
    Accounts false [] (Part.tokensAll (xs.map Gap.part)) false := accounts_nil_list Gap.accounts xs

theorem accounts_lines (xs : List (Leaf .other)) :
    Accounts b [] (Part.tokensAll (xs.map Leaf.part)) b :=
  accounts_nil_list (fun x => x.accounts_nil (by decide) (.inl rfl) (by decide)) xs

theorem Head.accounts (x : Head kind) {w : Landmark} (hmark : kind.landmark? false = some w)
    (hcomment : w ≠ .comment) (hsep : kind ≠ .docStringSeparator) :
    Accounts false [⟨w, x.title.token.number⟩] (Part.tokensAll x.parts) false := by
  have htitle := x.title.accounts_one hmark hcomment hsep
  have hblanks : Accounts false [] (Part.tokensAll (x.blanks.map Leaf.part)) false :=
    accounts_nil_list (fun y => y.accounts_nil (by decide) (.inl rfl) (by decide)) x.blanks
  have hdescription : Accounts false [] (Part.tokensAll x.description) false := by
    rw [Head.description]
    split
    · exact .nil false
    · simpa using accounts_lines x.lines
  have hremarks : Accounts false []
      (Part.tokensAll (x.remarks.elim [] fun r => r.1.part :: r.2.map Gap.part)) false := by
    cases x.remarks with
    | none => exact .nil false
    | some r =>
        exact (r.1.accounts_nil (by decide) (.inr rfl) (by decide)).append (accounts_gaps r.2)
  simpa [Head.parts] using htitle.append (hblanks.append (hdescription.append hremarks))

/-! ## Steps -/

theorem walk_cells (t : Token) : ∀ v ∈ (Node.rowOf t).cells.flatMap Cell.walk,
    v.line = t.number ∧ v.what ≠ .tag ∧ v.what.isAlone = false := by
  intro v hv
  obtain ⟨cell, hcell, hv⟩ := List.mem_flatMap.mp hv
  obtain ⟨i, _, rfl⟩ := List.mem_map.mp hcell
  rw [List.mem_singleton.mp hv]
  exact ⟨rfl, Landmark.noConfusion, rfl⟩

theorem Leaf.accounts_row (x : Leaf .tableRow) :
    Accounts false (Node.rowOf x.token).walk [x.token] false := by
  have hown := surround (x.owns_one (b := false) rfl Landmark.noConfusion) [] _
    (walk_cells x.token)
  have h := Accounts.one hown
  rwa [x.inside] at h

theorem Table.accounts_rest (x : Table) : Accounts false (x.body.flatMap Row.walk)
    (Part.tokensAll (x.rest.map TableLine.part)) false := by
  have hline : ∀ y : TableLine,
      Accounts false (y.row?.toList.flatMap Row.walk) y.part.tokens false := by
    intro y
    cases y with
    | row y => simpa [TableLine.row?, TableLine.part] using y.accounts_row
    | gap y => exact y.accounts
  have h := Accounts.list hline x.rest
  have hbody : x.rest.flatMap (fun y => y.row?.toList.flatMap Row.walk) =
      x.body.flatMap Row.walk := by
    rw [Table.body]
    induction x.rest with
    | nil => rfl
    | cons y ys ih => cases hy : y.row? <;> simp [hy, ih]
  rwa [hbody] at h

theorem Argument.accounts (x : Argument) :
    Accounts false x.value.walk x.part.tokens false := by
  cases x with
  | table x =>
      have hown := surround (x.first.owns_one (b := false) rfl Landmark.noConfusion)
        [⟨.dataTable, x.first.token.number⟩] _
        (List.forall_mem_cons.mpr ⟨⟨rfl, Landmark.noConfusion, rfl⟩, walk_cells x.first.token⟩)
      have hfirst := Accounts.one hown
      rw [x.first.inside] at hfirst
      exact hfirst.append x.accounts_rest
  | docString x =>
      have hopener := Accounts.one (x.opener.owns_one (b := false) rfl Landmark.noConfusion)
      have hcloser := Accounts.one (x.closer.owns_nil (b := true) (by decide) (.inl rfl))
      rw [x.opener.inside] at hopener
      rw [x.closer.inside] at hcloser
      have h : Accounts false (Argument.docString x).value.walk _ false :=
        hopener.append ((accounts_lines x.lines).append (hcloser.append (accounts_gaps x.gaps)))
      simpa [Argument.part, DocString.parts] using h

theorem Step.accounts (x : Step) : Accounts false x.value.walk x.part.tokens false := by
  have hline := x.line.accounts_one (b := false) rfl Landmark.noConfusion (by decide)
  have hargument := Accounts.list Argument.accounts x.argument.toList
  have h := hline.append ((accounts_gaps x.gaps).append hargument)
  have hwalk : x.value.walk = ⟨.step, x.line.token.number⟩ ::
      x.argument.toList.flatMap fun y => y.value.walk := by
    rw [FeatureFile.Step.walk, Step.value]
    cases x.argument <;> rfl
  rw [hwalk]
  simpa [Step.part] using h

theorem accounts_steps (xs : List Step) : Accounts false ((xs.map Step.value).flatMap
    FeatureFile.Step.walk) (Part.tokensAll (xs.map Step.part)) false := by
  rw [List.flatMap_map]
  exact Accounts.list Step.accounts xs

/-! ## Blocks -/

theorem TagLine.accounts (x : TagLine) : Accounts false
    ((Node.tagsOf x.line.token).flatMap Tag.walk) (Part.tokensAll x.parts) false := by
  have hwalk : (Node.tagsOf x.line.token).flatMap Tag.walk =
      (Node.itemsOf x.line.token).map fun _ => ⟨.tag, x.line.token.number⟩ := by
    rw [Node.tagsOf, List.flatMap_map, List.map_eq_flatMap]
    rfl
  have hown : x.line.token.Owns false ((Node.tagsOf x.line.token).flatMap Tag.walk) := by
    rw [hwalk]
    refine ⟨fun v hv => ?_, ?_, ?_⟩
    · obtain ⟨_, _, rfl⟩ := List.mem_map.mp hv
      rfl
    · rw [Token.landmark?, x.line.kind_eq]
      refine List.filter_eq_nil_iff.mpr fun v hv => ?_
      obtain ⟨_, _, rfl⟩ := List.mem_map.mp hv
      simp [Landmark.isAlone]
    · rw [x.line.kind_eq]
      cases Node.itemsOf x.line.token <;> simp
  have h := Accounts.one hown
  rw [x.line.inside] at h
  simpa [TagLine.parts] using h.append (accounts_gaps x.gaps)

theorem accounts_tags (xs : List TagLine) :
    Accounts false ((tagValues xs).flatMap Tag.walk) (Part.tokensAll (tagParts xs)) false := by
  have hlines : Accounts false ((tagValues xs).flatMap Tag.walk)
      (Part.tokensAll (xs.flatMap TagLine.parts)) false := by
    induction xs with
    | nil => exact .nil false
    | cons x xs ih =>
        have h := x.accounts.append ih
        rwa [← List.flatMap_append, ← Part.tokensAll_append] at h
  rw [tagParts]
  split
  · next hxs =>
      rw [List.isEmpty_iff.mp hxs]
      exact .nil false
  · simpa using hlines

theorem Examples.accounts (x : Examples) : Accounts false x.value.walk x.part.tokens false := by
  have hhead := x.head.accounts rfl Landmark.noConfusion TokenKind.noConfusion
  have htable : Accounts false (x.value.table.toList.flatMap ExamplesTable.walk)
      (Part.tokensAll (x.table.toList.map fun t => .node .examplesTable t.parts)) false := by
    rw [Examples.value]
    cases x.table with
    | none => exact .nil false
    | some t =>
        have h := t.first.accounts_row.append t.accounts_rest
        simpa [ExamplesTable.walk, Table.parts] using h
  have h : Accounts false x.value.walk _ false :=
    (accounts_tags x.tags).append (hhead.append htable)
  simpa [Examples.part] using h

theorem Background.accounts (x : Background) :
    Accounts false x.value.walk x.part.tokens false := by
  have hhead := x.head.accounts rfl Landmark.noConfusion TokenKind.noConfusion
  have h : Accounts false x.value.walk _ false := hhead.append (accounts_steps x.steps)
  simpa [Background.part] using h

theorem Scenario.accounts (x : Scenario) : Accounts false x.value.walk x.part.tokens false := by
  cases x with
  | plain tags head steps =>
      have hhead := head.accounts rfl Landmark.noConfusion TokenKind.noConfusion
      have h : Accounts false (Scenario.plain tags head steps).value.walk _ false :=
        (accounts_tags tags).append (hhead.append (accounts_steps steps))
      simpa [Scenario.part] using h
  | outline tags head steps examples =>
      have hhead := head.accounts rfl Landmark.noConfusion TokenKind.noConfusion
      have hexamples := Accounts.list Examples.accounts examples
      rw [← List.flatMap_map (g := FeatureFile.Examples.walk)] at hexamples
      have h : Accounts false (Scenario.outline tags head steps examples).value.walk _ false :=
        (accounts_tags tags).append (hhead.append ((accounts_steps steps).append hexamples))
      simpa [Scenario.part] using h

theorem Feature.accounts (x : Feature) : Accounts false x.value.walk x.part.tokens false := by
  have hlanguage : Accounts false []
      (Part.tokensAll (x.header.elim [] fun h => h.1.part :: h.2.map Gap.part)) false := by
    cases x.header with
    | none => exact .nil false
    | some h =>
        exact (h.1.accounts_nil (by decide) (.inl rfl) (by decide)).append (accounts_gaps h.2)
  have hhead := x.head.accounts rfl Landmark.noConfusion TokenKind.noConfusion
  have hbackground : Accounts false (x.value.background.toList.flatMap FeatureFile.Background.walk)
      (Part.tokensAll (x.background.toList.map Background.part)) false := by
    rw [Feature.value]
    cases x.background with
    | none => exact .nil false
    | some y => simpa using y.accounts
  have hscenarios := Accounts.list Scenario.accounts x.scenarios
  rw [← List.flatMap_map (g := ScenarioDefinition.walk)] at hscenarios
  have h : Accounts false x.value.walk _ false := hlanguage.append
    ((accounts_tags x.tags).append (hhead.append (hbackground.append hscenarios)))
  simpa [Feature.part, Feature.headerParts] using h

theorem Document.accounts (x : Document) : Accounts false x.value.walk x.tokens false := by
  have hfeature : Accounts false x.value.walk
      (Part.tokensAll (x.feature.toList.map Feature.part)) false := by
    rw [FeatureFile.Document.walk, Document.value]
    cases x.feature with
    | none => exact .nil false
    | some y => simpa using y.accounts
  have heof : Accounts false [] [x.eof.token] false :=
    x.eof.accounts_nil (by decide) (.inl rfl) (by decide)
  have h := (accounts_gaps x.gaps).append (hfeature.append heof)
  rw [List.append_nil] at h
  simpa [Document.tokens, Document.parts] using h

end Layout

/-! ## Tokens of a parse -/

theorem Token.landmarks_lines (b : Bool) (ts : List Token) :
    ((landmarks b ts).map Visit.line).Sublist (ts.map Token.number) := by
  induction ts generalizing b with
  | nil => exact List.Sublist.slnil
  | cons t ts ih =>
      rw [landmarks, List.map_append, List.map_cons]
      cases h : t.landmark? b with
      | none => exact (ih _).cons _
      | some v =>
          obtain ⟨w, _, rfl⟩ := Option.map_eq_some_iff.mp h
          exact (ih _).cons_cons _

theorem Token.landmarks_comments (b : Bool) (ts : List Token) :
    (ts.filterMap Token.comment?).map Comment.visit =
      (landmarks b ts).filter (·.what = .comment) := by
  induction ts generalizing b with
  | nil => rfl
  | cons t ts ih =>
      rw [landmarks, List.filter_append, ← ih, List.filterMap_cons]
      by_cases ht : t.kind? = some .comment
      · simp [Token.comment?, ht, landmark?, TokenKind.landmark?, Comment.visit, Token.location]
      · have hnone : t.comment? = none := if_neg ht
        have hother : (t.landmark? b).toList.filter (·.what = .comment) = [] := by
          refine List.filter_eq_nil_iff.mpr fun v hv => ?_
          obtain ⟨w, hw, rfl⟩ := Option.map_eq_some_iff.mp (Option.mem_toList.mp hv)
          obtain ⟨kind, hkind, hw⟩ := Option.bind_eq_some_iff.mp hw
          rw [decide_eq_true_eq]
          rintro rfl
          refine ht (hkind.trans (congrArg some ?_))
          cases b <;> cases kind <;> first | rfl | cases hw
        rw [hnone, hother, List.nil_append]

/-- Every tag line has tags. -/
theorem Stride.Taken.itemsOf_ne_nil {m next : Matcher} {x : Stride} (h : x.Taken m next)
    (hkind : x.token.kind? = some .tagLine) : Node.itemsOf x.token ≠ [] := by
  obtain ⟨reading, hreading, hask⟩ := h.ask
  have hmove : x.move.kind = .tagLine := by
    rw [Token.kind?, hreading] at hkind
    rw [← (Matcher.ask_yes hask).1]
    exact Option.some.inj hkind
  rw [hmove] at hask
  rcases Matcher.ask_cases m [] .tagLine x.token with hno | ⟨_, hk, _⟩ | ⟨l, _, hline⟩
  · rw [hno] at hask
    cases hask
  · cases hk
  · rw [hline, Matcher.readLine] at hask
    split at hask
    · next hstart =>
        cases hask
        rw [Node.itemsOf, hreading]
        exact Line.tags_ne_nil hstart
    · cases hask

/-! ## Accepted sources -/

namespace Parser

variable {parser : Parser DocumentBuilder} {matcher : Matcher} {source : Text}

/-- The tokens that are handed over come in the order of their lines. -/
theorem built_numbers (hmatcher : matcher.default ∈ Dialect.table) {d : Option Document}
    (h : (parser.parse matcher source).outcome = .ok d) :
    ((parser.built matcher source).map Token.number).Pairwise (· < ·) := by
  obtain ⟨honce, hsublist⟩ := takesEachOnce_of_parse_ok hmatcher h
  refine List.Pairwise.sublist (hsublist.map Token.number) ?_
  rw [honce.numbers, List.pairwise_map]
  exact List.Pairwise.imp Int.ofNat_lt.mpr List.pairwise_lt_range'

/-- The document of an accepted source accounts for every line. -/
theorem document_accounts_for_lines (builder : DocumentBuilder) (stopAtFirst : Bool)
    (matcher : Matcher) (hmatcher : matcher.default ∈ Dialect.table) (source : Text)
    (d : Option Document)
    (h : (parse { builder, stopAtFirst } matcher source).outcome = .ok d) :
    ∃ doc, d = some doc ∧ doc.AccountsFor (built { builder, stopAtFirst } matcher source) := by
  obtain ⟨x, xs, last, htokens, _, hvalue, _, htaken, hstrides, _⟩ := exists_layout h
  have hnumbers := built_numbers hmatcher h
  rw [← htokens] at hnumbers ⊢
  have hlines := hnumbers.sublist (Token.landmarks_lines false x.tokens)
  have hcomments : x.value.comments.map Comment.visit =
      (Token.landmarks false x.tokens).filter (·.what = .comment) :=
    Token.landmarks_comments false x.tokens
  refine ⟨x.value, hvalue, ⟨?_, ?_, ?_, ?_, x.accounts.order hnumbers⟩⟩
  · rw [x.accounts.alone, hcomments]
    have hperm := List.filter_append_perm (fun v : Visit => decide (v.what ≠ .comment))
      (Token.landmarks false x.tokens)
    simpa using hperm.symm
  · exact hlines.imp fun h => h.ne
  · intro n
    rw [x.accounts.tag]
    have htags : ∀ t ∈ x.tokens, t.kind? = some .tagLine → Node.itemsOf t ≠ [] := by
      rw [← hstrides]
      intro t ht
      obtain ⟨y, hy, rfl⟩ := List.mem_map.mp ht
      obtain ⟨m, next, hstride⟩ := htaken.exists_of_mem y hy
      exact hstride.itemsOf_ne_nil
    constructor
    · rintro ⟨t, ht, ⟨hkind, _⟩, hn⟩
      exact ⟨t, ht, hkind, hn⟩
    · rintro ⟨t, ht, hkind, hn⟩
      exact ⟨t, ht, ⟨hkind, htags t ht hkind⟩, hn⟩
  · have hsublist : (x.value.comments.map fun c => c.location.line).Sublist
        ((Token.landmarks false x.tokens).map Visit.line) := by
      have hvisits : (x.value.comments.map fun c => c.location.line) =
          (x.value.comments.map Comment.visit).map Visit.line := by
        rw [List.map_map]
        rfl
      rw [hvisits, hcomments]
      exact List.filter_sublist.map _
    exact hlines.sublist hsublist

/-- A source with a step that is switched off, a doc string, tables, and tags on two lines. -/
def busySource : Text :=
  ("# one\n@a @b\n@c\nFeature: f\nBackground:\n#? Given g\n\"\"\"\ntext\n\"\"\"\nScenario:\n* s\n" ++
    "|x|y|\n# two\n|z||\n@d\nScenario Outline:\n@e\nExamples:\n|h|\n|i|\n").toList

theorem document_accounts_for_lines_busySource :
    Dialect.english ∈ Dialect.table ∧
      Token.landmarks false (built { builder := ({} : DocumentBuilder) }
        (.new .commentedSteps .english) busySource) =
        [⟨.comment, 1⟩, ⟨.feature, 4⟩, ⟨.background, 5⟩, ⟨.step, 6⟩, ⟨.docString, 7⟩,
          ⟨.scenario, 10⟩, ⟨.step, 11⟩, ⟨.row, 12⟩, ⟨.comment, 13⟩, ⟨.row, 14⟩, ⟨.outline, 16⟩,
          ⟨.examples, 18⟩, ⟨.row, 19⟩, ⟨.row, 20⟩] ∧
      ∃ doc, (parse { builder := ({} : DocumentBuilder) } (.new .commentedSteps .english)
          busySource).outcome = .ok (some doc) ∧
        doc.AccountsFor (built { builder := ({} : DocumentBuilder) }
          (.new .commentedSteps .english) busySource) := by
  have henglish : Dialect.english ∈ Dialect.table := by decide
  have hok : (parse { builder := ({} : DocumentBuilder) } (.new .commentedSteps .english)
      busySource).outcome.isOk = true := by decide +kernel
  refine ⟨henglish, by decide +kernel, ?_⟩
  cases h : (parse { builder := ({} : DocumentBuilder) } (.new .commentedSteps .english)
      busySource).outcome with
  | error e =>
      rw [h] at hok
      cases hok
  | ok d =>
      obtain ⟨doc, rfl, haccounts⟩ := document_accounts_for_lines {} false
        (.new .commentedSteps .english) henglish busySource d h
      exact ⟨doc, rfl, haccounts⟩

end Parser

end FeatureFile
