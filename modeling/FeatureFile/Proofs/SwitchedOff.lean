import FeatureFile.Proofs.Legible
import Mathlib.Data.List.Sort

/-!
# Steps that are switched off

A hash mark in front of its keyword switches a step off. Where such steps are not known, their lines
are comments. `Document.commentOut` says what then becomes of a document: the steps are gone, and
their lines stand among the comments.

The same is done to a layout. The line of a step that is switched off becomes a comment of whatever
stands in front of it, a step that is kept or the head of the block, and so do the comments and
blank lines behind it (`Layout.muteSteps`). As long as nothing else belongs to such a step, no token
moves (`Layout.Document.mutes`), and the value of the layout is the document with these steps
commented out (`Layout.Document.mute_value`).
-/

namespace FeatureFile

/-! ## Documents -/

/-- A step that is switched off. -/
def Step.isOff (x : Step) : Bool := x.keyword.head? == some '#'

/-- The line of a step as a comment. -/
def Step.comment (ls : List Line) (x : Step) : Comment where
  location := ⟨x.location.line, 1⟩
  text := Text.chomp (ls[(x.location.line - 1).toNat]?.getD [])

def Step.keptOf (xs : List Step) : List Step := xs.filter fun x => !x.isOff

def Background.commentOut (x : Background) : Background := { x with steps := Step.keptOf x.steps }

def ScenarioDefinition.commentOut : ScenarioDefinition → ScenarioDefinition
  | .scenario x => .scenario { x with steps := Step.keptOf x.steps }
  | .outline x => .outline { x with steps := Step.keptOf x.steps }

def Feature.commentOut (x : Feature) : Feature :=
  { x with
    background := x.background.map Background.commentOut
    scenarios := x.scenarios.map ScenarioDefinition.commentOut }

/-- All steps of a document. -/
def Document.steps (d : Document) : List Step := d.feature.toList.flatMap Feature.steps

/-- Comments that take their places among others, in the order of lines. -/
def Comment.insertAll (ds cs : List Comment) : List Comment :=
  ds.foldr (List.orderedInsert fun d c => d.location.line ≤ c.location.line) cs

/-- The document without the steps that are switched off, and with their lines as comments. -/
def Document.commentOut (ls : List Line) (d : Document) : Document where
  feature := d.feature.map Feature.commentOut
  comments := Comment.insertAll ((d.steps.filter Step.isOff).map (Step.comment ls)) d.comments

/-! ## Tokens -/

namespace Token

/-- The line of a step that is switched off. -/
def isOff (t : Token) : Bool :=
  t.kind? == some .stepLine && (Node.keywordOf t).head? == some '#'

/-- The token, read as a comment. -/
def asComment (t : Token) : Token :=
  t.withReading
    { kind := .comment, text := some (Text.chomp (t.line.getD [])),
      dialect := (t.reading.map Reading.dialect).getD [] }

/-- The token as it is read where no step can be switched off. -/
def mute (t : Token) : Token := if t.isOff then t.asComment else t

variable {t : Token}

theorem isOff_of_kind {kind : TokenKind} (h : t.kind? = some kind) (hkind : kind ≠ .stepLine) :
    t.isOff = false := by
  simp [isOff, h, hkind]

theorem kind_of_isOff (h : t.isOff = true) : t.kind? = some .stepLine := by
  simp only [isOff, Bool.and_eq_true, beq_iff_eq] at h
  exact h.1

theorem mute_of_isOff (h : t.isOff = true) : t.mute = t.asComment := if_pos h

theorem mute_of_not_isOff (h : t.isOff = false) : t.mute = t := by
  rw [mute, h]
  rfl

@[simp] theorem bare_mute (t : Token) : t.mute.bare = t.bare := by
  unfold mute
  split <;> rfl

@[simp] theorem number_mute (t : Token) : t.mute.number = t.number := by
  rw [← bare_number, bare_mute, bare_number]

/-- The comment that the line of the token is. -/
def remark (t : Token) : Comment where
  location := ⟨t.number, 1⟩
  text := Text.chomp (t.line.getD [])

@[simp] theorem comment?_asComment (t : Token) : t.asComment.comment? = some t.remark := rfl

theorem comment?_line {c : Comment} (h : t.comment? = some c) :
    c.location.line = t.number := by
  rw [comment?] at h
  split at h
  · cases h
    rfl
  · cases h

theorem line_of_mem_comments {ts : List Token} {c : Comment} (h : c ∈ ts.filterMap comment?) :
    c.location.line ∈ ts.map number := by
  obtain ⟨t, ht, hc⟩ := List.mem_filterMap.mp h
  rw [comment?_line hc]
  exact List.mem_map_of_mem ht

theorem comments_pairwise {ts : List Token} (h : (ts.map number).Pairwise (· < ·)) :
    (ts.filterMap comment?).Pairwise fun c d => c.location.line < d.location.line := by
  rw [List.pairwise_filterMap]
  refine (List.pairwise_map.mp h).imp fun hless c hc d hd => ?_
  rw [comment?_line hc, comment?_line hd]
  exact hless

end Token

namespace Comment

variable {c : Comment} {cs ds : List Comment}

theorem insertAll_cons (d : Comment) (ds cs : List Comment) :
    insertAll (d :: ds) cs =
      (insertAll ds cs).orderedInsert (fun d c => d.location.line ≤ c.location.line) d := rfl

theorem insertAll_behind (h : ∀ d ∈ ds, c.location.line < d.location.line) :
    insertAll ds (c :: cs) = c :: insertAll ds cs := by
  induction ds with
  | nil => rfl
  | cons d ds ih =>
      obtain ⟨hd, hds⟩ := List.forall_mem_cons.mp h
      rw [insertAll_cons, ih hds, List.orderedInsert_of_not_le _ _ (by omega), insertAll_cons]

theorem orderedInsert_before (h : ∀ d ∈ cs, c.location.line < d.location.line) :
    cs.orderedInsert (fun d c => d.location.line ≤ c.location.line) c = c :: cs := by
  cases cs with
  | nil => rfl
  | cons d cs => exact List.orderedInsert_cons_of_le _ _ (h d List.mem_cons_self).le

end Comment

/-- Among tokens in the order of their lines, the lines of steps that are switched off take their
places between the comments. -/
theorem Token.comments_mute {ts : List Token} (h : (ts.map number).Pairwise (· < ·)) :
    (ts.map mute).filterMap comment? =
      Comment.insertAll ((ts.filter isOff).map remark) (ts.filterMap comment?) := by
  induction ts with
  | nil => rfl
  | cons t ts ih =>
      obtain ⟨hlater, hrest⟩ := List.pairwise_cons.mp h
      have ih := ih hrest
      rw [List.map_cons]
      cases hoff : t.isOff with
      | true =>
          have hnone : t.comment? = none := by
            rw [comment?, kind_of_isOff hoff]
            rfl
          have hbefore : ∀ c ∈ (ts.map mute).filterMap comment?,
              t.remark.location.line < c.location.line := by
            intro c hc
            have hmem := line_of_mem_comments hc
            simp only [List.map_map, Function.comp_def, number_mute] at hmem
            exact hlater _ hmem
          rw [mute_of_isOff hoff, List.filterMap_cons_some t.comment?_asComment,
            List.filter_cons_of_pos hoff, List.map_cons, List.filterMap_cons_none hnone,
            Comment.insertAll_cons, ← ih, Comment.orderedInsert_before hbefore]
      | false =>
          rw [mute_of_not_isOff hoff, List.filter_cons_of_neg (Bool.eq_false_iff.mp hoff)]
          cases hc : t.comment? with
          | none => rw [List.filterMap_cons_none hc, List.filterMap_cons_none hc, ih]
          | some c =>
              have hbehind : ∀ d ∈ (ts.filter isOff).map remark,
                  c.location.line < d.location.line := by
                intro d hd
                obtain ⟨u, hu, rfl⟩ := List.mem_map.mp hd
                rw [comment?_line hc]
                exact hlater _ (List.mem_map_of_mem (List.mem_of_mem_filter hu))
              rw [List.filterMap_cons_some hc, List.filterMap_cons_some hc,
                Comment.insertAll_behind hbehind, ih]

/-! ## Layouts -/

namespace Layout

variable {kind : TokenKind}

/-- A comment and what follows it, if there is any. -/
def gapsOf : Option (Leaf .comment × List Gap) → List Gap
  | none => []
  | some r => .comment r.1 :: r.2

def Leaf.asComment (x : Leaf .stepLine) : Leaf .comment := ⟨x.token.asComment, rfl⟩

/-- The argument with comments and blank lines behind it. -/
def Argument.followedBy (gs : List Gap) : Argument → Argument
  | .table x => .table { x with rest := x.rest ++ gs.map .gap }
  | .docString x => .docString { x with gaps := x.gaps ++ gs }

/-- The step with comments and blank lines behind it. -/
def Step.followedBy (gs : List Gap) (x : Step) : Step :=
  match x.argument with
  | none => { x with gaps := x.gaps ++ gs }
  | some a => { x with argument := some (a.followedBy gs) }

/-- The head with comments and blank lines behind it. -/
def Head.followedBy (r : Option (Leaf .comment × List Gap)) (x : Head kind) : Head kind :=
  match x.remarks with
  | none => { x with remarks := r }
  | some s => { x with remarks := some (s.1, s.2 ++ gapsOf r) }

/-- The steps that are kept, and what stands in front of the first of them. -/
def muteSteps : List Step → Option (Leaf .comment × List Gap) × List Step
  | [] => (none, [])
  | x :: xs =>
    if x.line.token.isOff then
      (some (x.line.asComment, x.gaps ++ gapsOf (muteSteps xs).1), (muteSteps xs).2)
    else (none, x.followedBy (gapsOf (muteSteps xs).1) :: (muteSteps xs).2)

def Background.mute (x : Background) : Background where
  head := x.head.followedBy (muteSteps x.steps).1
  steps := (muteSteps x.steps).2

def Scenario.mute : Scenario → Scenario
  | .plain tags head steps => .plain tags (head.followedBy (muteSteps steps).1) (muteSteps steps).2
  | .outline tags head steps examples =>
    .outline tags (head.followedBy (muteSteps steps).1) (muteSteps steps).2 examples

def Feature.mute (x : Feature) : Feature :=
  { x with
    background := x.background.map Background.mute
    scenarios := x.scenarios.map Scenario.mute }

/-- The layout in which the lines of steps that are switched off are comments. -/
def Document.mute (x : Document) : Document := { x with feature := x.feature.map Feature.mute }

/-! ## Tokens of a muted layout -/

/-- None of the tokens is the line of a step that is switched off. -/
def NoOff (ps : List Part) : Prop := ∀ t ∈ Part.tokensAll ps, t.isOff = false

/-- Nothing belongs to the step, if it is switched off. -/
def Step.Lone (x : Step) : Prop := x.line.token.isOff = true → x.argument = none

/-- The parts `ps` have the steps `xs`, and `qs` are made of the same tokens, where the lines of
steps that are switched off are comments. -/
@[mk_iff]
structure Mutes (ps : List Part) (xs : List Step) (qs : List Part) : Prop where
  offs : (Part.tokensAll ps).filter Token.isOff = (xs.map fun x => x.line.token).filter Token.isOff
  tokens : (∀ x ∈ xs, x.Lone) → Part.tokensAll qs = (Part.tokensAll ps).map Token.mute

section NoOff

variable {ps qs : List Part}

@[simp] theorem noOff_nil : NoOff [] := fun _ h => by cases h

@[simp] theorem noOff_append : NoOff (ps ++ qs) ↔ NoOff ps ∧ NoOff qs := by
  simp only [NoOff, Part.tokensAll_append, List.forall_mem_append]

@[simp] theorem noOff_node (r : Rule) : NoOff [.node r ps] ↔ NoOff ps := by simp [NoOff]

theorem noOff_cons (p : Part) : NoOff (p :: ps) ↔ NoOff [p] ∧ NoOff ps := by
  rw [← noOff_append]
  rfl

theorem noOff_map {α : Type} {f : α → Part} (h : ∀ x, NoOff [f x]) (xs : List α) :
    NoOff (xs.map f) := by
  induction xs with
  | nil => exact noOff_nil
  | cons x xs ih => exact (noOff_cons _).mpr ⟨h x, ih⟩

theorem Leaf.noOff (hkind : kind ≠ .stepLine) (x : Leaf kind) : NoOff [x.part] := by
  intro t ht
  obtain rfl : t = x.token := List.mem_singleton.mp ht
  exact Token.isOff_of_kind x.kind_eq hkind

theorem Gap.noOff (x : Gap) : NoOff [x.part] := by
  cases x with
  | comment x => exact x.noOff TokenKind.noConfusion
  | blank x => exact x.noOff TokenKind.noConfusion

theorem TableLine.noOff (x : TableLine) : NoOff [x.part] := by
  cases x with
  | row x => exact x.noOff TokenKind.noConfusion
  | gap x => exact x.noOff

theorem Head.noOff (hkind : kind ≠ .stepLine) (x : Head kind) : NoOff x.parts := by
  rw [Head.parts, noOff_cons, noOff_append, noOff_append]
  refine ⟨x.title.noOff hkind, noOff_map (Leaf.noOff TokenKind.noConfusion) _, ?_, ?_⟩
  · rw [Head.description]
    split
    · exact noOff_nil
    · exact (noOff_node _).mpr (noOff_map (Leaf.noOff TokenKind.noConfusion) _)
  · cases x.remarks with
    | none => exact noOff_nil
    | some r => exact (noOff_cons _).mpr ⟨r.1.noOff TokenKind.noConfusion, noOff_map Gap.noOff _⟩

theorem Table.noOff (x : Table) : NoOff x.parts :=
  (noOff_cons _).mpr ⟨x.first.noOff TokenKind.noConfusion, noOff_map TableLine.noOff _⟩

theorem DocString.noOff (x : DocString) : NoOff x.parts := by
  rw [DocString.parts, noOff_cons, noOff_append]
  refine ⟨x.opener.noOff TokenKind.noConfusion, noOff_map (Leaf.noOff TokenKind.noConfusion) _, ?_⟩
  exact (noOff_cons _).mpr ⟨x.closer.noOff TokenKind.noConfusion, noOff_map Gap.noOff _⟩

theorem Argument.noOff (x : Argument) : NoOff [x.part] := by
  cases x with
  | table x => exact (noOff_node _).mpr x.noOff
  | docString x => exact (noOff_node _).mpr x.noOff

theorem noOff_tags (xs : List TagLine) : NoOff (tagParts xs) := by
  have hlines : NoOff (xs.flatMap TagLine.parts) := by
    induction xs with
    | nil => exact noOff_nil
    | cons x xs ih =>
        rw [List.flatMap_cons, noOff_append, TagLine.parts, noOff_cons]
        exact ⟨⟨x.line.noOff TokenKind.noConfusion, noOff_map Gap.noOff _⟩, ih⟩
  rw [tagParts]
  split
  · exact noOff_nil
  · exact (noOff_node _).mpr hlines

theorem Examples.noOff (x : Examples) : NoOff [x.part] := by
  rw [Examples.part, noOff_node, noOff_append, noOff_node, noOff_append]
  exact ⟨noOff_tags _, x.head.noOff TokenKind.noConfusion,
    noOff_map (fun t => (noOff_node _).mpr t.noOff) _⟩

theorem NoOff.map_mute (h : NoOff ps) : (Part.tokensAll ps).map Token.mute = Part.tokensAll ps :=
  (List.map_congr_left fun t ht => Token.mute_of_not_isOff (h t ht)).trans (List.map_id _)

theorem NoOff.filter (h : NoOff ps) : (Part.tokensAll ps).filter Token.isOff = [] :=
  List.filter_eq_nil_iff.mpr fun t ht => by simp [h t ht]

theorem NoOff.mutes (h : NoOff ps) : Mutes ps [] ps := ⟨h.filter, fun _ => h.map_mute.symm⟩

end NoOff

namespace Mutes

variable {ps qs ps' qs' : List Part} {xs ys : List Step}

theorem append (h : Mutes ps xs qs) (h' : Mutes ps' ys qs') :
    Mutes (ps ++ ps') (xs ++ ys) (qs ++ qs') := by
  refine ⟨?_, fun hlone => ?_⟩
  · rw [Part.tokensAll_append, List.filter_append, h.offs, h'.offs, List.map_append,
      List.filter_append]
  · obtain ⟨hxs, hys⟩ := List.forall_mem_append.mp hlone
    rw [Part.tokensAll_append, Part.tokensAll_append, List.map_append, h.tokens hxs, h'.tokens hys]

theorem node (r : Rule) (h : Mutes ps xs qs) : Mutes [.node r ps] xs [.node r qs] := by
  simpa [mutes_iff] using h

theorem map {α : Type} {f : α → Part} {g : α → List Step} {e : α → α}
    (h : ∀ x, Mutes [f x] (g x) [f (e x)]) (l : List α) :
    Mutes (l.map f) (l.flatMap g) ((l.map e).map f) := by
  induction l with
  | nil => exact noOff_nil.mutes
  | cons x l ih => exact (h x).append ih

theorem option {α : Type} {f : α → Part} {g : α → List Step} {e : α → α}
    (h : ∀ x, Mutes [f x] (g x) [f (e x)]) (o : Option α) :
    Mutes (o.toList.map f) (o.toList.flatMap g) ((o.map e).toList.map f) := by
  rw [Option.toList_map]
  exact map h o.toList

end Mutes

/-! ## What follows -/

theorem tokens_gapsOf (r : Option (Leaf .comment × List Gap)) :
    Part.tokensAll (r.elim [] fun r => r.1.part :: r.2.map Gap.part) =
      Part.tokensAll ((gapsOf r).map Gap.part) := by
  cases r <;> rfl

theorem Argument.tokens_followedBy (gs : List Gap) (x : Argument) :
    (x.followedBy gs).part.tokens = x.part.tokens ++ Part.tokensAll (gs.map Gap.part) := by
  cases x with
  | table x => simp [followedBy, part, Table.parts, Function.comp_def, TableLine.part]
  | docString x => simp [followedBy, part, DocString.parts]

theorem Step.tokens_followedBy (gs : List Gap) (x : Step) :
    (x.followedBy gs).part.tokens = x.part.tokens ++ Part.tokensAll (gs.map Gap.part) := by
  rw [followedBy]
  split
  · next h => simp [part, h]
  · next h => simp [part, h, Argument.tokens_followedBy]

theorem Head.tokens_followedBy (r : Option (Leaf .comment × List Gap)) (x : Head kind) :
    Part.tokensAll (x.followedBy r).parts =
      Part.tokensAll x.parts ++ Part.tokensAll ((gapsOf r).map Gap.part) := by
  rw [followedBy]
  split
  · next h => simp [parts, description, h, tokens_gapsOf]
  · next h => simp [parts, description, h]

@[simp] theorem Argument.value_followedBy (gs : List Gap) (x : Argument) :
    (x.followedBy gs).value = x.value := by
  cases x with
  | table x =>
      have hgaps : (gs.map TableLine.gap).filterMap TableLine.row? = [] := by
        simp [List.filterMap_eq_nil_iff, TableLine.row?]
      simp [followedBy, value, Table.rows, Table.body, hgaps]
  | docString x => rfl

@[simp] theorem Step.value_followedBy (gs : List Gap) (x : Step) :
    (x.followedBy gs).value = x.value := by
  rw [followedBy]
  split
  · next h => simp [value, h]
  · next h => simp [value, h]

@[simp] theorem Head.title_followedBy (r : Option (Leaf .comment × List Gap)) (x : Head kind) :
    (x.followedBy r).title = x.title := by
  rw [followedBy]
  split <;> rfl

@[simp] theorem Head.lines_followedBy (r : Option (Leaf .comment × List Gap)) (x : Head kind) :
    (x.followedBy r).lines = x.lines := by
  rw [followedBy]
  split <;> rfl

@[simp] theorem Head.value_followedBy (r : Option (Leaf .comment × List Gap)) (x : Head kind) :
    (x.followedBy r).value = x.value := by
  simp [value, texts]

@[simp] theorem Head.valid_followedBy (r : Option (Leaf .comment × List Gap)) (x : Head kind) :
    (x.followedBy r).Valid ↔ x.Valid := by
  simp [Valid, texts]

theorem Argument.valid_followedBy (gs : List Gap) (x : Argument) :
    (x.followedBy gs).Valid ↔ x.Valid := by
  cases x with
  | table x =>
      have hvalue := Argument.value_followedBy gs (.table x)
      simp only [followedBy, value, Argument.dataTable.injEq, DataTable.mk.injEq] at hvalue
      simp only [followedBy, Valid, Table.Valid, hvalue.2]
  | docString x => rfl

@[simp] theorem Step.valid_followedBy (gs : List Gap) (x : Step) :
    (x.followedBy gs).Valid ↔ x.Valid := by
  rw [followedBy]
  split
  · next h => simp [Valid, h]
  · next h => simp [Valid, h, Argument.valid_followedBy]

/-! ## Steps -/

@[simp] theorem Step.isOff_value (x : Step) : x.value.isOff = x.line.token.isOff := by
  simp [FeatureFile.Step.isOff, Token.isOff, value, x.line.kind_eq]

theorem Step.noOff (x : Step) (h : x.line.token.isOff = false) : NoOff [x.part] := by
  rw [part, noOff_node, noOff_cons, noOff_append]
  refine ⟨fun t ht => ?_, noOff_map Gap.noOff _, noOff_map Argument.noOff _⟩
  rwa [List.mem_singleton.mp ht]

/-- Steps in a row, of which those that are switched off become comments of what stands in front. -/
theorem muteSteps_mutes (xs : List Step) :
    Mutes (xs.map Step.part) xs
      ((gapsOf (muteSteps xs).1).map Gap.part ++ (muteSteps xs).2.map Step.part) := by
  induction xs with
  | nil => exact noOff_nil.mutes
  | cons x xs ih =>
      have hgaps := noOff_map Gap.noOff x.gaps
      have hargument := noOff_map Argument.noOff x.argument.toList
      refine ⟨?_, fun hlone => ?_⟩
      · simp [Step.part, Leaf.part, ih.offs, hgaps.filter, hargument.filter, List.filter_cons]
      · obtain ⟨hx, hxs⟩ := List.forall_mem_cons.mp hlone
        have hrest := ih.tokens hxs
        rw [Part.tokensAll_append] at hrest
        -- What stands in front of the steps behind goes to this step, if it is kept, and else joins
        -- what stands in front of it.
        cases hoff : x.line.token.isOff with
        | true =>
            simp [muteSteps, hoff, gapsOf, Gap.part, Leaf.part, Leaf.asComment, Step.part, hx hoff,
              Token.mute_of_isOff hoff, hgaps.map_mute, ← hrest]
        | false =>
            have hkept := (x.noOff hoff).map_mute
            simp only [Part.tokensAll_cons, Part.tokensAll_nil, List.append_nil] at hkept
            simp [muteSteps, hoff, gapsOf, Step.tokens_followedBy, hkept, ← hrest]

theorem muteSteps_value (xs : List Step) :
    (muteSteps xs).2.map Step.value = FeatureFile.Step.keptOf (xs.map Step.value) := by
  induction xs with
  | nil => rfl
  | cons x xs ih =>
      rw [FeatureFile.Step.keptOf] at ih ⊢
      cases hoff : x.line.token.isOff with
      | true => simp [muteSteps, hoff, ih]
      | false => simp [muteSteps, hoff, ih]

theorem muteSteps_valid {xs : List Step} (h : ∀ x ∈ xs, x.Valid) :
    ∀ x ∈ (muteSteps xs).2, x.Valid := by
  induction xs with
  | nil => exact List.forall_mem_nil _
  | cons x xs ih =>
      obtain ⟨hx, hxs⟩ := List.forall_mem_cons.mp h
      rw [muteSteps]
      split
      · exact ih hxs
      · exact List.forall_mem_cons.mpr ⟨(x.valid_followedBy _).mpr hx, ih hxs⟩

/-! ## Blocks -/

theorem Head.mutes (hkind : kind ≠ .stepLine) (x : Head kind) (ys : List Step) :
    Mutes (x.parts ++ ys.map Step.part) ys
      ((x.followedBy (muteSteps ys).1).parts ++ (muteSteps ys).2.map Step.part) := by
  have h := (x.noOff hkind).mutes.append (muteSteps_mutes ys)
  simpa [mutes_iff, Head.tokens_followedBy] using h

def Scenario.steps : Scenario → List Step
  | .plain _ _ steps => steps
  | .outline _ _ steps _ => steps

def Feature.steps (x : Feature) : List Step :=
  x.background.toList.flatMap Background.steps ++ x.scenarios.flatMap Scenario.steps

def Document.steps (x : Document) : List Step := x.feature.toList.flatMap Feature.steps

theorem Scenario.steps_value (x : Scenario) : x.value.steps = x.steps.map Step.value := by
  cases x <;> rfl

theorem Feature.steps_value (x : Feature) : x.value.steps = x.steps.map Step.value := by
  simp only [FeatureFile.Feature.steps, steps, value, List.map_append, List.map_flatMap,
    List.flatMap_map, Scenario.steps_value]
  congr 1
  cases x.background <;> simp [Background.value]

theorem Document.steps_value (x : Document) : x.value.steps = x.steps.map Step.value := by
  cases h : x.feature <;>
    simp [FeatureFile.Document.steps, steps, value, h, Feature.steps_value]

theorem Background.mute_value (x : Background) : x.mute.value = x.value.commentOut := by
  simp [value, mute, FeatureFile.Background.commentOut, muteSteps_value]

theorem Scenario.mute_value (x : Scenario) : x.mute.value = x.value.commentOut := by
  cases x <;> simp [value, mute, ScenarioDefinition.commentOut, muteSteps_value]

theorem Feature.mute_value (x : Feature) : x.mute.value = x.value.commentOut := by
  simp [value, mute, FeatureFile.Feature.commentOut, Function.comp_def, Background.mute_value,
    Scenario.mute_value]

theorem Scenario.mute_valid {x : Scenario} (h : x.Valid) : x.mute.Valid := by
  cases x with
  | plain tags head steps => exact ⟨(head.valid_followedBy _).mpr h.1, muteSteps_valid h.2⟩
  | outline tags head steps examples =>
      exact ⟨(head.valid_followedBy _).mpr h.1, muteSteps_valid h.2.1, h.2.2⟩

theorem Document.mute_valid {x : Document} (h : x.Valid) : x.mute.Valid := by
  intro y hy
  obtain ⟨f, hf, rfl⟩ := Option.map_eq_some_iff.mp hy
  obtain ⟨hhead, hbackground, hscenarios⟩ := h f hf
  refine ⟨hhead, fun c hc => ?_, List.forall_mem_map.mpr fun s hs => ?_⟩
  · obtain ⟨b, hb, rfl⟩ := Option.map_eq_some_iff.mp hc
    obtain ⟨hb, hsteps⟩ := hbackground b hb
    exact ⟨(b.head.valid_followedBy _).mpr hb, muteSteps_valid hsteps⟩
  · exact Scenario.mute_valid (hscenarios s hs)

theorem Background.mutes (x : Background) : Mutes [x.part] x.steps [x.mute.part] :=
  (x.head.mutes TokenKind.noConfusion x.steps).node _

theorem Scenario.mutes (x : Scenario) : Mutes [x.part] x.steps [x.mute.part] := by
  cases x with
  | plain tags head steps =>
      exact ((noOff_tags tags).mutes.append
        ((head.mutes TokenKind.noConfusion steps).node .scenario)).node _
  | outline tags head steps examples =>
      have hbody := (head.mutes TokenKind.noConfusion steps).append
        (noOff_map Examples.noOff examples).mutes
      rw [List.append_nil, List.append_assoc, List.append_assoc] at hbody
      exact ((noOff_tags tags).mutes.append (hbody.node .scenarioOutline)).node _

theorem Feature.mutes (x : Feature) : Mutes [x.part] x.steps [x.mute.part] := by
  have hheader : NoOff [.node .featureHeader (x.headerParts ++ x.head.parts)] := by
    rw [noOff_node, noOff_append, headerParts, noOff_append]
    refine ⟨⟨?_, noOff_tags x.tags⟩, x.head.noOff TokenKind.noConfusion⟩
    cases x.header with
    | none => exact noOff_nil
    | some h => exact (noOff_cons _).mpr ⟨h.1.noOff TokenKind.noConfusion, noOff_map Gap.noOff _⟩
  have hbody := (Mutes.option Background.mutes x.background).append
    (Mutes.map Scenario.mutes x.scenarios)
  exact (hheader.mutes.append hbody).node .feature

theorem Document.mutes (x : Document) : Mutes x.parts x.steps x.mute.parts := by
  have h := (noOff_map Gap.noOff x.gaps).mutes.append
    ((Mutes.option Feature.mutes x.feature).append (x.eof.noOff TokenKind.noConfusion).mutes)
  rw [List.append_nil] at h
  exact h

theorem Document.lone_of_value {x : Document}
    (h : ∀ s ∈ x.value.steps, s.isOff = true → s.argument = none) : ∀ y ∈ x.steps, y.Lone := by
  intro y hy hoff
  refine Option.map_eq_none_iff.mp (h y.value ?_ (y.isOff_value.trans hoff))
  rw [x.steps_value]
  exact List.mem_map_of_mem hy

theorem Document.mute_bare {x : Document} (h : ∀ y ∈ x.steps, y.Lone) :
    x.mute.tokens.map Token.bare = x.tokens.map Token.bare := by
  have htokens : x.mute.tokens = x.tokens.map Token.mute := x.mutes.tokens h
  rw [htokens, List.map_map]
  exact List.map_congr_left fun t _ => t.bare_mute

theorem Document.mute_numbers {x : Document} (h : ∀ y ∈ x.steps, y.Lone) :
    x.mute.tokens.map Token.number = x.tokens.map Token.number := by
  have hbare := congrArg (List.map Token.number) (mute_bare h)
  rw [List.map_map, List.map_map] at hbare
  exact hbare

/-- The line that a step stands on is known by its number. -/
theorem Step.comment_value {x : Step} {ls : List Line}
    (h : x.line.token.bare ∈ Reader.fresh 0 ls) : x.value.comment ls = x.line.token.remark := by
  have htext : ls[(x.line.token.number - 1).toNat]?.getD [] = x.line.token.line.getD [] := by
    rcases Reader.mem_fresh h with ⟨n, l, hn, hline, hnumber⟩ | ⟨hline, hnumber⟩
    · rw [Token.bare_number] at hnumber
      rw [Token.bare_line] at hline
      have hindex : (x.line.token.number - 1).toNat = n := by omega
      rw [hindex, hn, hline]
    · rw [Token.bare_number] at hnumber
      rw [Token.bare_line] at hline
      have hindex : (x.line.token.number - 1).toNat = ls.length := by omega
      rw [hindex, List.getElem?_length, hline]
  have hplace : x.value.location.line = x.line.token.number := rfl
  rw [FeatureFile.Step.comment, Token.remark, hplace, htext]

/-- The tokens and the value agree about the lines of steps that are switched off. -/
theorem Document.remarks_value (x : Document) {ls : List Line}
    (hfresh : ∀ t ∈ x.tokens, t.bare ∈ Reader.fresh 0 ls) :
    (x.tokens.filter Token.isOff).map Token.remark =
      (x.value.steps.filter FeatureFile.Step.isOff).map (FeatureFile.Step.comment ls) := by
  have hoffs : x.tokens.filter Token.isOff =
      (x.steps.filter fun y => y.line.token.isOff).map fun y => y.line.token :=
    x.mutes.offs.trans List.filter_map
  have hsteps : x.value.steps.filter FeatureFile.Step.isOff =
      (x.steps.filter fun y => y.line.token.isOff).map Step.value := by
    rw [x.steps_value, List.filter_map]
    simp only [Function.comp_def, Step.isOff_value]
  rw [hsteps, hoffs, List.map_map, List.map_map]
  refine List.map_congr_left fun y hy => (Step.comment_value (hfresh _ ?_)).symm
  have hmem : y.line.token ∈ x.tokens.filter Token.isOff := by
    rw [hoffs]
    exact List.mem_map_of_mem hy
  exact List.mem_of_mem_filter hmem

/-- The value of a muted layout is that of the layout, with the steps that are switched off
commented out. -/
theorem Document.mute_value {x : Document} {ls : List Line} (hlone : ∀ y ∈ x.steps, y.Lone)
    (hnumbers : (x.tokens.map Token.number).Pairwise (· < ·))
    (hfresh : ∀ t ∈ x.tokens, t.bare ∈ Reader.fresh 0 ls) :
    x.mute.value = x.value.commentOut ls := by
  have htokens : x.mute.tokens = x.tokens.map Token.mute := x.mutes.tokens hlone
  have hcomments := Token.comments_mute hnumbers
  rw [← htokens, x.remarks_value hfresh] at hcomments
  have hfeature : x.mute.feature.map Feature.value =
      (x.feature.map Feature.value).map FeatureFile.Feature.commentOut := by
    cases h : x.feature <;> simp [mute, h, Feature.mute_value]
  rw [value, FeatureFile.Document.commentOut, hcomments, hfeature]
  rfl

end Layout

end FeatureFile
