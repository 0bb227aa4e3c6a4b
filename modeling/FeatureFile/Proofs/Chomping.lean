import FeatureFile.Proofs.LineEnds
import FeatureFile.Proofs.LineOrder
import FeatureFile.Proofs.Relocation
import FeatureFile.Proofs.Sequence

/-!
# Runs on lines without their ends

The ends of lines can be dropped without any change to a run. A matcher reads the same from a line
without its end (`Matcher.readLine_chomp`), and builders do not look at lines at all, so that a run
on lines without their ends goes through the same steps with the same errors (`Run.steps_chomp`).
Two sources that differ in the ends of their lines alone therefore have the same outcome.

Only one error takes its place from the line and not from a reading, that of a line which is not
expected. Such a line is not blank, so that its indent does not depend on how it ends.
-/

namespace FeatureFile

/-! ## Tokens without the end of their line -/

/-- The token without the end of its line. -/
def Token.chomp (t : Token) : Token := t.shift id Text.chomp

def Call.chomp (c : Call) : Call := c.shift id Text.chomp

/-- The reader with the ends of all its lines dropped. -/
def Reader.chomp (r : Reader) : Reader :=
  { queue := r.queue.map Token.chomp, unread := r.unread.map Text.chomp, count := r.count }

/-- The trial of tokens without the ends of their lines. -/
def Trial.chomp (x : Trial) : Trial :=
  { x with token := x.token.chomp, reader := x.reader.chomp, refused := x.refused.map Token.chomp }

@[simp] theorem Token.chomp_reading (t : Token) : t.chomp.reading = t.reading := rfl

@[simp] theorem Token.isEnd_chomp (t : Token) : t.chomp.isEnd = t.isEnd := Option.isNone_map

@[simp] theorem Token.chomp_withReading (t : Token) (r : Reading) :
    (t.withReading r).chomp = t.chomp.withReading r := rfl

namespace Matcher

variable {m : Matcher} {hidden : List TokenKind}

theorem readLine_chomp (hm : m.dialect ∈ Dialect.table) (kind : TokenKind) (l : Line) :
    m.readLine kind (Text.chomp l) = m.readLine kind l := by
  obtain ⟨e, hl, he⟩ := Text.exists_dropEnd Text.isLineEnd l
  conv_rhs => rw [hl]
  rw [readLine_append he hm]
  rfl

variable (hm : m.dialect ∈ Dialect.table)
include hm

theorem ask_chomp (kind : TokenKind) (t : Token) :
    m.ask hidden kind t.chomp = m.ask hidden kind t := by
  have hread : m.read kind t.chomp = m.read kind t := by
    obtain ⟨number, line, reading⟩ := t
    cases line with
    | none => rfl
    | some l => exact readLine_chomp hm kind l
  rw [ask, ask, Token.isEnd_chomp, hread]

theorem firstReading_chomp (t : Token) (kinds : List TokenKind) :
    m.firstReading hidden t.chomp kinds = (m.firstReading hidden t kinds).map Token.chomp := by
  induction kinds with
  | nil => rfl
  | cons kind kinds ih =>
      rw [firstReading, firstReading, ask_chomp hm]
      cases m.ask hidden kind t with
      | yes reading next => rfl
      | _ => exact ih

theorem lookForExamples_chomp (t : Token) :
    m.lookForExamples hidden t.chomp = (m.lookForExamples hidden t).map id Token.chomp := by
  rw [lookForExamples, lookForExamples, firstReading_chomp hm, firstReading_chomp hm]
  cases m.firstReading hidden t [.examplesLine] with
  | some u => rfl
  | none => cases m.firstReading hidden t [.empty, .comment, .tagLine] <;> rfl

end Matcher

namespace Reader

theorem next_chomp (r : Reader) : r.chomp.next = (r.next.1.chomp, r.next.2.chomp) := by
  obtain ⟨_ | ⟨t, ts⟩, _ | ⟨l, ls⟩, count⟩ := r <;> rfl

/-- What looking ahead comes to, with the ends of all lines dropped. -/
def Outlook.chomp (o : Outlook) : Outlook :=
  { found := o.found, seen := o.seen.map Token.chomp, reader := o.reader.chomp }

variable {look : Token → Glance × Token}
  (hlook : ∀ t, look t.chomp = (look t).map id Token.chomp)
include hlook

theorem lookUnread_chomp (count : Nat) (ls : List Line) :
    lookUnread look count (ls.map Text.chomp) = (lookUnread look count ls).chomp := by
  induction ls generalizing count with
  | nil =>
      have hend : look { number := count + 1, line := none } = _ :=
        hlook { number := count + 1, line := none }
      have hseen := congrArg Prod.snd hend
      rw [Prod.map_snd] at hseen
      simp only [List.map_nil, lookUnread, Outlook.chomp, chomp, List.map_cons, ← hseen]
  | cons l ls ih =>
      have hline : look { number := count + 1, line := some (Text.chomp l) } = _ :=
        hlook { number := count + 1, line := some l }
      rw [List.map_cons, lookUnread, lookUnread, hline]
      rcases look { number := count + 1, line := some l } with ⟨_ | _ | _, t⟩
      · rfl
      · simp only [Prod.map, ih]
        rfl
      · rfl

theorem lookQueued_chomp (unread : List Line) (count : Nat) (queue : List Token) :
    lookQueued look (unread.map Text.chomp) count (queue.map Token.chomp) =
      (lookQueued look unread count queue).chomp := by
  induction queue with
  | nil => exact lookUnread_chomp hlook count unread
  | cons q qs ih =>
      rw [List.map_cons, lookQueued, lookQueued, hlook q]
      rcases look q with ⟨_ | _ | _, t⟩
      · rfl
      · simp only [Prod.map, ih]
        rfl
      · rfl

theorem lookAhead_chomp (r : Reader) :
    r.chomp.lookAhead look = (r.lookAhead look).map id Reader.chomp := by
  have houtlook := lookQueued_chomp hlook r.unread r.count r.queue
  rw [lookAhead, lookAhead]
  simp only [chomp] at houtlook ⊢
  rw [houtlook]
  simp only [Outlook.chomp, chomp, Prod.map, List.map_append]
  rfl

end Reader

theorem Trial.run_chomp {hidden : List TokenKind} {moves : List Move} {x : Trial}
    (hm : x.matcher.dialect ∈ Dialect.table) :
    run hidden moves x.chomp = (run hidden moves x).chomp := by
  induction moves generalizing x with
  | nil => rfl
  | cons move moves ih =>
      have hask : x.chomp.matcher.ask hidden move.kind x.chomp.token =
          x.matcher.ask hidden move.kind x.token := Matcher.ask_chomp hm _ _
      rw [run_cons, run_cons, hask]
      cases h : x.matcher.ask hidden move.kind x.token with
      | no => exact ih hm
      | broken fault => rfl
      | unsupported reading =>
          have hrest := ih (x := { x with
            token := x.token.withReading reading
            refused := x.refused ++ [x.token.withReading reading] }) hm
          rw [chomp, List.map_append] at hrest
          exact hrest
      | yes reading matcher =>
          have hm' := (Matcher.ask_yes h).2.dialect_mem hm
          have hahead : x.chomp.reader.lookAhead (matcher.lookForExamples hidden) = _ :=
            Reader.lookAhead_chomp (Matcher.lookForExamples_chomp hm') x.reader
          simp only [hahead, Prod.map_fst, id]
          split
          · split
            · rfl
            · exact ih (x := { x with
                token := x.token.withReading reading
                matcher
                reader := (x.reader.lookAhead (matcher.lookForExamples hidden)).2 }) hm'
          · rfl

theorem State.decide_chomp {s : State} {hidden : List TokenKind} {t : Token} {m : Matcher}
    {r : Reader} (hm : m.dialect ∈ Dialect.table) :
    s.decide hidden t.chomp m r.chomp = (s.decide hidden t m r).chomp :=
  Trial.run_chomp (x := { token := t, matcher := m, reader := r }) hm

/-! ## Runs -/

/-- The place and the text of a line that is not expected do not depend on how the line ends. -/
theorem ParseError.unexpected_chomp {t : Token} {kinds : List TokenKind}
    (ht : ∀ l, t.line = some l → l.isBlank = false) :
    unexpected t.chomp kinds = unexpected t kinds := by
  obtain ⟨number, line, reading⟩ := t
  cases line with
  | none => rfl
  | some l =>
      obtain ⟨e, hl, he⟩ := Text.exists_dropEnd Text.isLineEnd l
      have hblank : Line.isBlank (Text.chomp l) = false := (Line.isBlank_chomp l).trans (ht l rfl)
      have hindent : Line.indent (Text.chomp l) = Line.indent l := by
        conv_rhs => rw [hl]
        exact (Line.indent_append hblank e).symm
      have htext : Text.trim (Line.trimmed (Text.chomp l)) = Text.trim (Line.trimmed l) := by
        rw [Line.trimmed, Line.trimmed, Text.trim_trimLeft, Text.trim_trimLeft]
        conv_rhs => rw [hl]
        exact (Text.trim_append_blanks _ (Line.blanks_of_lineEnds he)).symm
      simp only [unexpected, unexpectedLine, unexpectedPlace, Token.chomp, Token.shift,
        Option.map_some, hindent, htext]
      rfl

namespace Run

variable {β ρ : Type} {mode : Mode} {move : β → β} {s : State} {run : Run β}

theorem refusals_chomp (x : Trial) : refusals x.chomp = refusals x := by
  rw [refusals, refusals, Trial.chomp, List.map_map]
  rfl

theorem callsOf_chomp (a : Move) (t : Token) :
    callsOf a t.chomp = (callsOf a t).map Call.chomp := by
  simp only [callsOf, List.map_append, List.map_map, Function.comp_def, List.map_cons, List.map_nil]
  rfl

theorem decision_chomp (hm : run.matcher.dialect ∈ Dialect.table) :
    (run.carry Reader.chomp move).decision mode s = (run.decision mode s).chomp := by
  have hnext := run.reader.next_chomp
  simp only [decision, carry, hnext]
  exact State.decide_chomp hm

theorem andThen_carry {h : Reader → Reader} {x : Run β × Option Halt}
    {f g : Run β → Run β × Option Halt}
    (hfg : ∀ run, x = (run, none) → f (run.carry h move) = (g run).map (carry h move) id) :
    andThen (x.map (carry h move) id) f = (andThen x g).map (carry h move) id := by
  obtain ⟨run, _ | halt⟩ := x
  · exact hfg run rfl
  · rfl

variable [Builder β ρ] (hmove : Builder.Carries Call.chomp move)
include hmove

theorem settle_chomp {x : Trial} (hx : s ≠ .finished → x.move = .ok none →
      ∀ l, x.token.line = some l → l.isBlank = false) :
    settle mode s x.chomp (run.carry Reader.chomp move) =
      (settle mode s x run).map (carry Reader.chomp move) id := by
  have hmoveof : x.chomp.move = x.move := rfl
  have htoken : x.chomp.token = x.token.chomp := rfl
  rw [settle, settle, hmoveof, htoken]
  rcases hx' : x.move with fault | (_ | a)
  · rfl
  · simp only []
    split
    · rfl
    · next hs => rw [ParseError.unexpected_chomp (hx hs hx'), report_carry]
  · simp only [callsOf_chomp, callAll_carry hmove]

variable (hmode : mode.hidden = [])
include hmode

theorem ended_advance_chomp (hm : run.matcher.dialect ∈ Dialect.table) :
    ((run.carry Reader.chomp move).advance mode s).ended =
      (run.advance mode s).ended.map (carry Reader.chomp move) id := by
  have hdec : s.Decides mode.hidden run.reader.next.1 run.matcher run.reader.next.2
      (run.decision mode s) := s.decide_decides _ _ _ _
  have hbare : (run.decision mode s).token.bare = run.reader.next.1.bare := Trial.run_bare
  have htext : s ≠ .finished → (run.decision mode s).move = .ok none →
      ∀ l, (run.decision mode s).token.line = some l → l.isBlank = false := by
    intro hs hnone l hl
    cases hdec with
    | none _ _ _ hno =>
        rw [Token.line_eq_of_bare_eq hbare] at hl
        rw [hmode] at hno
        exact (State.text_of_unexpected hs hl hno).1
    | found a _ _ hfound => cases hnone.symm.trans hfound
    | broken a fault _ hbroken => cases hnone.symm.trans hbroken
  rw [ended_advance, ended_advance, decision_chomp hm, refusals_chomp]
  generalize run.decision mode s = x at *
  have hreport : reportAll mode (refusals x) (carry Reader.chomp move
      { run with matcher := x.matcher, reader := x.reader }) = _ := reportAll_carry _ _
  rw [← andThen_carry fun _ _ => settle_chomp hmove htext, ← hreport]
  rfl

theorem steps_chomp {fuel : Nat} (hm : run.matcher.dialect ∈ Dialect.table) :
    (run.carry Reader.chomp move).steps mode fuel s =
      (run.steps mode fuel s).map (carry Reader.chomp move) id := by
  induction fuel generalizing s run with
  | zero => rfl
  | succ fuel ih =>
      rw [steps_succ, steps_succ, ended_advance_chomp hmove hmode hm]
      refine andThen_carry fun next hnext => ?_
      obtain ⟨s', hs', rfl⟩ := Step.of_ended hnext
      have hend : (run.carry Reader.chomp move).reader.next.1.isEnd = run.reader.next.1.isEnd := by
        have hreader : (run.carry Reader.chomp move).reader = run.reader.chomp := rfl
        rw [hreader, Reader.next_chomp, Token.isEnd_chomp]
      have htarget : target s (run.decision mode s).chomp = target s (run.decision mode s) := rfl
      rw [hend, decision_chomp hm, htarget, ih ((advance_goes hs').dialect_mem hm)]
      split <;> rfl

theorem complete_chomp (hm : run.matcher.dialect ∈ Dialect.table) :
    (run.carry Reader.chomp move).complete mode =
      (run.complete mode).map (carry Reader.chomp move) id := by
  rw [complete_eq, complete_eq]
  have hopen : (run.carry Reader.chomp move).call mode (.opened .document) = _ :=
    call_carry hmove (.opened .document) run
  rw [hopen]
  refine andThen_carry fun first hfirst => ?_
  have hdialect : first.matcher.dialect ∈ Dialect.table := by
    rw [(call_none hfirst).matcher]
    exact hm
  have hsize : (first.carry Reader.chomp move).reader.size = first.reader.size := by
    simp only [carry, Reader.size, Reader.chomp, List.length_map]
  rw [hsize, steps_chomp hmove hmode hdialect]
  refine andThen_carry fun last _ => ?_
  have hclose : (last.carry Reader.chomp move).call mode (.closed .document) = _ :=
    call_carry hmove (.closed .document) last
  rw [hclose]
  refine andThen_carry fun closed _ => ?_
  have herrors : (closed.carry Reader.chomp move).errors = closed.errors := rfl
  rw [herrors]
  split <;> rfl

end Run

/-! ## Builders -/

/-- What a builder has gathered can be rid of the ends of lines, and nothing is seen of it. -/
structure Builder.IgnoresEnds {β ρ : Type} [Builder β ρ] (move : β → β) : Prop where
  receive : Builder.Carries Call.chomp move
  reset : ∀ b : β, move (Builder.reset b) = Builder.reset b
  result : ∀ b : β, Builder.result (move b) = Builder.result b

theorem DocumentBuilder.ignoresEnds :
    Builder.IgnoresEnds (DocumentBuilder.shift id Text.chomp) where
  receive := by
    intro c b
    have hshift : receive c.chomp (b.shift id Text.chomp) = _ := receive_shift c b
    rw [Refusal.renumber_id, Option.map_id] at hshift
    exact hshift
  reset _ := rfl
  result := by
    intro b
    change result _ = result b
    obtain ⟨stack, comments⟩ := b
    rw [result, result]
    cases stack with
    | nil => rfl
    | cons top below =>
        simp only [shift, List.map_cons, Node.first_shift, Location.renumber_id,
          Comment.relocate_id, List.map_id]
        rcases top.first (.rule .document) with _ | i
        · rfl
        · cases i <;> simp [NodeItem.shift, NodeItem.renumber]

theorem Listing.formatToken_chomp (t : Token) : formatToken t.chomp = formatToken t := by
  obtain ⟨number, _ | l, _ | reading⟩ := t <;> rfl

theorem Listing.ignoresEnds : Builder.IgnoresEnds (Listing.shift id Text.chomp) where
  receive := by
    intro c l
    cases c with
    | opened rule => rfl
    | closed rule => rfl
    | read t =>
        simp only [Builder.receive, receive, Call.chomp, Call.shift, shift, List.map_append,
          List.map_cons, List.map_nil]
  reset _ := rfl
  result := by
    intro l
    have hformat : (l.tokens.map (Token.shift id Text.chomp)).map formatToken =
        l.tokens.map formatToken := by
      rw [List.map_map]
      exact List.map_congr_left fun t _ => formatToken_chomp t
    change Except.ok (text _) = Except.ok (text l)
    rw [text, shift, hformat, text]

/-! ## Sources -/

namespace Text

variable {t : Text} {c : Char}

theorem chomp_cons (c : Char) (t : Text) : chomp (c :: t) = chomp (c :: chomp t) := by
  rw [chomp, chomp, dropEnd, dropEnd, chomp, dropEnd_dropEnd]

theorem lines_newline (t : Text) : lines ('\n' :: t) = ['\n'] :: lines t := by
  rw [lines, if_pos rfl]

theorem lines_cons_nil (hc : c ≠ '\n') (h : lines t = []) : lines (c :: t) = [[c]] := by
  rw [lines, if_neg hc, h]

theorem lines_cons_cons {l : Text} {ls : List Text} (hc : c ≠ '\n') (h : lines t = l :: ls) :
    lines (c :: t) = (c :: l) :: ls := by
  rw [lines, if_neg hc, h]

/-- A character in front of the first line does not change how the lines compare. -/
theorem chomped_lines_cons {u : Text} (hc : c ≠ '\n')
    (h : (lines t).map chomp = (lines u).map chomp) :
    (lines (c :: t)).map chomp = (lines (c :: u)).map chomp := by
  cases ht : lines t with
  | nil =>
      rw [ht] at h
      rw [lines_cons_nil hc ht, lines_cons_nil hc (List.map_eq_nil_iff.mp h.symm)]
  | cons l ls =>
      rw [ht, List.map_cons] at h
      obtain ⟨l', ls', hu, hl, hls⟩ := List.map_eq_cons_iff.mp h.symm
      rw [lines_cons_cons hc ht, lines_cons_cons hc hu, List.map_cons, List.map_cons, chomp_cons,
        chomp_cons c l', hl, hls]

theorem replace_newline_cons (new : Text) (c : Char) (t : Text) :
    replace ['\n'] new (c :: t) =
      if c = '\n' then new ++ replace ['\n'] new t else c :: replace ['\n'] new t := by
  have hfront : List.isPrefixOf ['\n'] (c :: t) = true ↔ c = '\n' := by
    rw [List.isPrefixOf_iff_prefix, List.cons_prefix_cons]
    exact ⟨fun h => h.1.symm, fun h => ⟨h.symm, List.nil_prefix⟩⟩
  rw [replace, substitute, replace]
  simp only [hfront]
  rfl

/-- With carriage returns in front of the line feeds the lines are the same but for their ends. -/
theorem chomped_lines_crlf (h : '\r' ∉ t) :
    (lines (replace "\n".toList "\r\n".toList t)).map chomp = (lines t).map chomp := by
  change (lines (replace ['\n'] ['\r', '\n'] t)).map chomp = _
  induction t with
  | nil => rfl
  | cons c t ih =>
      rw [List.mem_cons, not_or] at h
      have hrest := ih h.2
      rw [replace_newline_cons]
      split
      · next hc =>
          have hreturn : ∀ u : Text, lines ('\r' :: '\n' :: u) = ['\r', '\n'] :: lines u :=
            fun u => lines_cons_cons (by decide) (lines_newline u)
          rw [hc, lines_newline, List.map_cons, ← hrest]
          exact congrArg (List.map chomp) (hreturn _)
      · next hc => exact chomped_lines_cons hc hrest

/-- So they are with a line feed at the end of the last line. -/
theorem chomped_lines_newline (hne : t ≠ []) (h : t.getLast? ≠ some '\n') :
    (lines (t ++ ['\n'])).map chomp = (lines t).map chomp := by
  induction t with
  | nil => exact absurd rfl hne
  | cons c t ih =>
      cases t with
      | nil =>
          have hc : c ≠ '\n' := fun hc => h (congrArg some hc)
          have hend : lines [c, '\n'] = [[c, '\n']] := lines_cons_cons hc rfl
          have hsame : chomp ([c] ++ ['\n']) = chomp [c] :=
            dropEnd_append [c] (List.forall_mem_singleton.mpr rfl)
          rw [lines_cons_nil hc rfl]
          exact (congrArg (List.map chomp) hend).trans (congrArg ([·]) hsame)
      | cons d t =>
          have hrest := ih (List.cons_ne_nil _ _) h
          by_cases hc : c = '\n'
          · rw [hc, List.cons_append, lines_newline, lines_newline, List.map_cons, List.map_cons,
              hrest]
          · exact chomped_lines_cons hc hrest

end Text

/-! ## Parses -/

namespace Parser

variable {β ρ : Type} [Builder β ρ] {move : β → β} {parser : Parser β} {matcher : Matcher}
  {source other : Text}

/-- Two sources whose lines differ in their ends alone have the same outcome. -/
theorem outcome_eq_of_chomp (hmove : Builder.IgnoresEnds move)
    (hmatcher : matcher.default ∈ Dialect.table)
    (h : (Text.lines source).map Text.chomp = (Text.lines other).map Text.chomp) :
    (parser.parse matcher source).outcome = (parser.parse matcher other).outcome := by
  have hchomp : ∀ text : Text,
      ((parser.start matcher text).carry Reader.chomp move).complete parser.mode =
        ((parser.start matcher text).complete parser.mode).map (Run.carry Reader.chomp move) id :=
    fun text => Run.complete_chomp hmove.receive rfl hmatcher
  have hreader : (Reader.ofText source).chomp = (Reader.ofText other).chomp := by
    simp only [Reader.ofText, Reader.chomp, h]
  have hstart : (parser.start matcher source).carry Reader.chomp move =
      (parser.start matcher other).carry Reader.chomp move := by
    simp only [Run.carry, start, hreader]
  have hsame := (hchomp source).symm.trans ((congrArg _ hstart).trans (hchomp other))
  rw [parse_eq, parse_eq]
  dsimp only
  generalize (parser.start matcher source).complete parser.mode = x at hsame
  generalize (parser.start matcher other).complete parser.mode = y at hsame
  obtain ⟨run, halt⟩ := x
  obtain ⟨run', halt'⟩ := y
  obtain ⟨hrun, hhalt⟩ := Prod.ext_iff.mp hsame
  obtain rfl : halt = halt' := hhalt
  have hresult : Builder.result run.builder = Builder.result run'.builder := by
    rw [← hmove.result run.builder, ← hmove.result run'.builder]
    exact congrArg (fun r : Run β => Builder.result r.builder) hrun
  cases halt with
  | some halt => rfl
  | none => exact congrArg (Except.mapError Halt.fault) hresult

/-- Line endings do not matter: a source has the same outcome, as a document and as a listing, with
carriage returns in front of its line feeds, and with or without a line feed at its end. -/
theorem outcome_ignores_line_endings (stopAtFirst : Bool) (matcher : Matcher)
    (hmatcher : matcher.default ∈ Dialect.table) (source other : Text)
    (hother : ('\r' ∉ source ∧ other = Text.replace "\n".toList "\r\n".toList source) ∨
      (source ≠ [] ∧ source.getLast? ≠ some '\n' ∧ other = source ++ "\n".toList))
    (builder : DocumentBuilder) (listing : Listing) :
    (parse { builder, stopAtFirst } matcher other).outcome =
        (parse { builder, stopAtFirst } matcher source).outcome ∧
      (parse { builder := listing, stopAtFirst } matcher other).outcome =
        (parse { builder := listing, stopAtFirst } matcher source).outcome := by
  have hlines : (Text.lines other).map Text.chomp = (Text.lines source).map Text.chomp := by
    rcases hother with ⟨hsource, rfl⟩ | ⟨hne, hlast, rfl⟩
    · exact Text.chomped_lines_crlf hsource
    · exact Text.chomped_lines_newline hne hlast
  exact ⟨outcome_eq_of_chomp DocumentBuilder.ignoresEnds hmatcher hlines,
    outcome_eq_of_chomp Listing.ignoresEnds hmatcher hlines⟩

/-- A table that is not even, a blank line, a line among tags, and no line feed at the end. -/
def gappedSource : Text :=
  "Feature:\n  Scenario:\n   #* a\n    |b|\n     |c|d|\n \n @e\n  f".toList

def gappedErrors : List ParseError :=
  [.placed ⟨5, some 6⟩ .unevenTable,
    .placed ⟨8, some 3⟩
      (.unexpectedToken (ParseError.expectedNames State.scenarioTags.expected) "f".toList),
    .placed ⟨9, some 0⟩ (.unexpectedEnd (ParseError.expectedNames State.scenarioTags.expected))]

theorem outcome_ignores_line_endings_gappedSource :
    Dialect.english ∈ Dialect.table ∧ '\r' ∉ gappedSource ∧ gappedSource ≠ [] ∧
      gappedSource.getLast? ≠ some '\n' ∧
      (parse { builder := ({} : DocumentBuilder) } (.new .commentedSteps .english)
        (Text.replace "\n".toList "\r\n".toList gappedSource)).outcome =
          .error (.errors gappedErrors) ∧
      (parse { builder := ({} : DocumentBuilder) } (.new .commentedSteps .english)
        (gappedSource ++ "\n".toList)).outcome = .error (.errors gappedErrors) := by
  have henglish : Dialect.english ∈ Dialect.table := by decide
  have hreturn : '\r' ∉ gappedSource := by decide
  have hne : gappedSource ≠ [] := by decide
  have hlast : gappedSource.getLast? ≠ some '\n' := by decide
  have houtcome : (parse { builder := ({} : DocumentBuilder) } (.new .commentedSteps .english)
      gappedSource).outcome = .error (.errors gappedErrors) := by decide +kernel
  have hreturns := outcome_ignores_line_endings false (.new .commentedSteps .english) henglish
    gappedSource _ (.inl ⟨hreturn, rfl⟩) {} {}
  have hnewline := outcome_ignores_line_endings false (.new .commentedSteps .english) henglish
    gappedSource _ (.inr ⟨hne, hlast, rfl⟩) {} {}
  exact ⟨henglish, hreturn, hne, hlast, hreturns.1.trans houtcome, hnewline.1.trans houtcome⟩

end Parser

end FeatureFile
