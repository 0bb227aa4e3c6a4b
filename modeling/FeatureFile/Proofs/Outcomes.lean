import FeatureFile.Listing
import FeatureFile.Proofs.Closing
import FeatureFile.Proofs.Escapes
import FeatureFile.Proofs.Trimming

/-!
# How a parse can end

A parse ends with a result, with one error raised at once, or with all errors together. Everything
else would be a fault: a state without a meaning, a node that lacks a part, a look into a line that
is not there. One fault can happen, on a table row that ends inside an escape; this module shows
that no other does.

What could go wrong in a turn is listed by `Run.Halts`. The token may have no answer, which is the
dangling escape. The state may be the last one, but no turn begins there. Or the builder may
refuse a call with something else than an error. For the document builder the last point rests on
its being healthy, and that in turn on the tokens it is handed: the separator that opens a doc
string must come with a text, and a description must not begin with an empty line. Both are facts
about the matcher, which knows whether it is inside a doc string exactly when the state does
(`Run.Goes.inDocString`), and tries a blank line as blank before it tries it as anything else.
-/

namespace FeatureFile

/-! ## Tokens as moves want them -/

/-- Is a doc string open in the state? -/
def State.inDocString : State → Bool
  | .docString _ => true
  | _ => false

theorem State.inDocString_next (s : State) : ∀ a ∈ s.moves,
    a.next.inDocString = (s.inDocString != (a.kind == .docStringSeparator)) := by
  revert s
  exact State.forall_of_all (by decide)

/-- Doc strings open with a separator and descriptions with a line that is not taken for an empty
one. -/
theorem State.openers (s : State) : ∀ a ∈ s.moves,
    (.docString ∈ a.opens → a.kind = .docStringSeparator ∧ s.inDocString = false) ∧
      (.description ∈ a.opens →
        a.kind = .other ∧ s.inDocString = false ∧ s.rank .empty < s.rank a.kind) := by
  revert s
  exact State.forall_of_all (by decide)

theorem Text.dropEnd_eq_nil {p : Char → Bool} {t : Text} (h : Text.dropEnd p t = []) :
    ∀ c ∈ t, p c = true := by
  induction t with
  | nil =>
      intro c hc
      cases hc
  | cons d ds ih =>
      rw [dropEnd] at h
      split at h
      · rename_i hnil
        split at h
        · rename_i hd
          intro c hc
          rcases List.mem_cons.mp hc with rfl | hc
          · exact hd
          · exact ih hnil c hc
        · cases h
      · cases h

theorem Line.chomp_ne_nil {l : Line} (h : l.isBlank = false) : Text.chomp l ≠ [] := by
  intro hnil
  have hblank : l.trimmed = [] := by
    rw [Line.trimmed, Text.trimLeft, List.dropWhile_eq_nil_iff]
    intro c hc
    exact Text.isBlank_of_isLineEnd (Text.dropEnd_eq_nil hnil c hc)
  rw [Line.isBlank, hblank] at h
  cases h

namespace Matcher

variable {m next : Matcher} {s : State} {a : Move} {t : Token} {reading : Reading}

theorem ask_other_text (hm : m.separator = none) (hblank : (m.ask [] .empty t).isYes = false)
    (h : m.ask [] .other t = .yes reading next) : reading.text.getD [] ≠ [] := by
  rcases ask_cases m [] .other t with hno | ⟨_, hk, _⟩ | ⟨l, hl, hline⟩
  · rw [hno] at h
    cases h
  · cases hk
  · rw [hline] at h
    rw [ask_of_line hl rfl] at hblank
    simp only [readLine] at hblank h
    cases h
    have hl' : l.isBlank = false := by
      cases hb : l.isBlank with
      | false => rfl
      | true =>
          rw [hb] at hblank
          cases hblank
    rw [Option.getD_some, contentOf_of_outside hm]
    exact Line.chomp_ne_nil hl'

/-- A token that a state makes a move on is as the move wants it. -/
theorem serves_of_ask (hm : m.separator.isSome = s.inDocString) (ha : a ∈ s.moves)
    (h : m.ask [] a.kind t = .yes reading next)
    (hfirst : ∀ kind, s.rank kind < s.rank a.kind → (m.ask [] kind t).isYes = false) :
    a.Serves (t.withReading reading) := by
  obtain ⟨hdoc, hdesc⟩ := s.openers a ha
  have hnone : s.inDocString = false → m.separator = none := by
    intro hs
    rw [hs] at hm
    exact Option.isNone_iff_eq_none.mp (Option.isSome_eq_false_iff.mp hm)
  refine ⟨?_, ?_, ?_⟩
  · rw [Token.kind?, Token.withReading_reading]
    exact congrArg some (ask_yes h).1
  · intro hopens
    obtain ⟨hk, hs⟩ := hdoc hopens
    rw [hk] at h
    exact ask_separator_text (hnone hs) h
  · intro hopens
    obtain ⟨hk, hs, hrank⟩ := hdesc hopens
    have hblank := hfirst .empty hrank
    rw [hk] at h
    exact ask_other_text (hnone hs) hblank h

end Matcher

/-! ## Builders that never fail -/

/-- A builder that no parse makes fail. `Holds` is kept by every move on a token as the move wants
it, refusals are errors, and behind the end of the input there is a result, which is `Good`. -/
structure Builder.Sturdy {β ρ : Type} [Builder β ρ] (Holds : State → β → Prop) (Good : ρ → Prop) :
    Prop where
  opened : ∀ b : β, (receive (.opened .document) (reset b)).2 = none ∧
    Holds .start (receive (.opened .document) (reset b)).1
  moved : ∀ {s : State} {b : β} {a : Move} {t : Token}, Holds s b → a ∈ s.moves → a.Serves t →
    Holds a.next (feed (Run.callsOf a t) b).1 ∧
      ∀ r ∈ (feed (Run.callsOf a t) b).2, r.IsError
  closed : ∀ {s : State} {b : β}, Holds s b →
    ∀ r ∈ (receive (.closed .document) b).2.toList, r.IsError
  finished : ∀ {b : β}, Holds .finished b → (receive (.closed .document) b).2 = none ∧
    ∃ r, result (receive (.closed .document) b).1 = .ok r ∧ Good r

theorem DocumentBuilder.sturdy :
    Builder.Sturdy DocumentBuilder.Healthy (fun d : Option Document => d.isSome = true) where
  opened _ := by
    refine ⟨rfl, rfl, ?_⟩
    intro n hn
    have hempty : ∀ r : Rule, r.needs = [] → r.isNamed = false → Node.Fit { rule := r } :=
      fun r hneeds hnamed =>
        ⟨fun i hi => (by cases hi), fun _ => Node.complete_of_needs_nil hneeds, hnamed⟩
    rcases List.mem_cons.mp hn with rfl | hn
    · exact hempty .document rfl rfl
    · rw [List.mem_singleton.mp hn]
      exact hempty .root rfl rfl
  moved h ha ht := h.feed ha ht
  closed h := h.close_isError
  finished h := by
    obtain ⟨hnone, d, hd⟩ := h.close_finished
    exact ⟨hnone, some d, hd, rfl⟩

theorem Listing.feed_snd (cs : List Call) (l : Listing) : (Builder.feed cs l).2 = [] := by
  induction cs generalizing l with
  | nil => rfl
  | cons c cs ih =>
      rw [Builder.feed_cons_snd, ih]
      cases c <;> rfl

theorem Listing.sturdy :
    Builder.Sturdy (fun _ (_ : Listing) => True) (fun _ : Text => True) where
  opened _ := ⟨rfl, trivial⟩
  moved _ _ _ := by
    refine ⟨trivial, ?_⟩
    rw [Listing.feed_snd]
    intro r hr
    cases hr
  closed _ := by
    intro r hr
    cases hr
  finished _ := ⟨rfl, _, rfl, trivial⟩

/-! ## What is kept along a run -/

namespace Run

variable {β ρ : Type} [Builder β ρ] {mode : Mode} {s s' : State} {run : Run β} {o : Step β}
  {Holds : State → β → Prop} {Good : ρ → Prop}

theorem Goes.inDocString (h : Goes mode s run o s')
    (hm : run.matcher.separator.isSome = s.inDocString) :
    o.run.matcher.separator.isSome = s'.inDocString := by
  cases h with
  | moved a reading ha hask =>
      have hfollows := (Matcher.ask_yes hask).2
      rw [s.inDocString_next a ha]
      by_cases hk : a.kind = .docStringSeparator
      · rw [hk] at hfollows
        rw [hfollows.separator_isSome, hm, hk]
        cases s.inDocString <;> rfl
      · rw [hfollows.separator_eq hk, hm, beq_false_of_ne hk]
        cases s.inDocString <;> rfl
  | skipped _ _ hmatcher =>
      rw [hmatcher]
      exact hm

/-- What is known of a run that has come to a state. -/
structure Sane (Holds : State → β → Prop) (mode : Mode) (s : State) (run : Run β) : Prop where
  builder : Holds s run.builder
  matcher : run.matcher.separator.isSome = s.inDocString
  errors : run.errors.length ≤ tolerance
  quiet : mode.stopAtFirst = true → run.errors = []

theorem Sane.goes (hb : Builder.Sturdy Holds Good) (hmode : mode.hidden = [])
    (h : Sane Holds mode s run) (hgoes : Goes mode s run o s') : Sane Holds mode s' o.run := by
  refine ⟨?_, hgoes.inDocString h.matcher, hgoes.length_le h.errors, ?_⟩
  · cases hgoes with
    | moved a reading ha hask htoken hfirst _ _ hbuilder =>
        rw [hmode] at hask hfirst
        rw [hbuilder, htoken]
        exact (hb.moved h.builder ha (Matcher.serves_of_ask h.matcher ha hask hfirst)).1
    | skipped _ _ _ _ _ hbuilder =>
        rw [hbuilder]
        exact h.builder
  · intro hstop
    cases hgoes with
    | moved _ _ _ _ _ _ _ _ _ _ _ hquiet =>
        rw [hquiet hstop]
        exact h.quiet hstop
    | skipped _ _ _ _ _ _ _ _ hgo =>
        rw [hgo] at hstop
        cases hstop

theorem Sane.halts (hb : Builder.Sturdy Holds Good) (hmode : mode.hidden = [])
    (h : Sane Holds mode s run) (hs : s ≠ .finished) {halt : Halt}
    (hhalts : Halts mode s run halt) :
    halt.Proper mode ∨ (halt = .fault .danglingEscape ∧ ∃ l, run.reader.next.1.line = some l ∧
      l.startsWith "|".toList = true ∧ l.cells = none) := by
  cases hhalts with
  | proper halt hproper => exact .inl (hproper h.errors)
  | untried a fault ha hask =>
      obtain ⟨rfl, hline⟩ := Matcher.ask_broken hask
      exact .inr ⟨rfl, hline⟩
  | lost hfinished => exact absurd hfinished hs
  | failed a reading halt ha next hask hfirst hproper =>
      rw [hmode] at hask hfirst
      have hserves := Matcher.serves_of_ask h.matcher ha hask hfirst
      exact .inl (hproper h.errors (hb.moved h.builder ha hserves).2)

end Run

/-- A line that starts like a table row and ends in an odd number of backslashes. -/
def Line.Dangles (l : Line) : Prop :=
  l.startsWith "|".toList = true ∧ Odd (Text.backslashes (Text.trim l))

/-- The ways in which a parse may end. -/
def Orderly {ρ : Type} (stopAtFirst : Bool) (source : Text) (Good : ρ → Prop) :
    Except Halt ρ → Prop
  | .ok r => Good r
  | .error (.error _) => stopAtFirst = true
  | .error (.errors es) => stopAtFirst = false ∧ 1 ≤ es.length ∧ es.length ≤ 11
  | .error (.fault fault) => fault = .danglingEscape ∧ ∃ l ∈ Text.lines source, Line.Dangles l

namespace Parser

variable {β ρ : Type} [Builder β ρ] {Holds : State → β → Prop} {Good : ρ → Prop}
  {parser : Parser β} {matcher : Matcher} {source : Text}

theorem sane_turns (hb : Builder.Sturdy Holds Good) :
    ∀ turn ∈ parser.turns matcher source, Run.Sane Holds parser.mode turn.state turn.run := by
  refine Run.turns_induction (P := fun s run => Run.Sane Holds parser.mode s run) ?_ _ _ _ ?_
  · intro s run s' h hgoes _
    exact h.goes hb rfl hgoes
  · exact ⟨(hb.opened parser.builder).2, rfl, Nat.zero_le _, fun _ => rfl⟩

theorem lines_turns : ∀ turn ∈ parser.turns matcher source,
    ∀ l ∈ turn.run.reader.pending, l ∈ Text.lines source := by
  refine Run.turns_induction (P := fun _ run => ∀ l ∈ run.reader.pending, l ∈ Text.lines source)
    ?_ _ _ _ ?_
  · intro s run s' h hgoes hend l hl
    obtain ⟨taken, _, hperm⟩ := hgoes.pending hend
    exact h l (hperm.mem_iff.mp (List.mem_cons_of_mem _ hl))
  · intro l hl
    exact hl

/-- Closing the document brings a result, or all errors together. -/
theorem ending_cases (hb : Builder.Sturdy Holds Good) {s : State} {run : Run β}
    (h : Run.Sane Holds parser.mode s run) (hs : s = .finished ∨ run.errors ≠ []) :
    (∃ closed r, parser.ending run = (closed, none) ∧ Builder.result closed.builder = .ok r ∧
      Good r) ∨
      ∃ closed halt, parser.ending run = (closed, some halt) ∧ halt.Proper parser.mode := by
  unfold ending
  rcases hcall : run.call parser.mode (.closed .document) with ⟨closed, _ | halt⟩
  · have hgrows := Run.call_none hcall
    cases herrors : closed.errors with
    | nil =>
        have hnil : run.errors = [] := by
          rw [hgrows.errors] at herrors
          exact (List.append_eq_nil_iff.mp herrors).1
        obtain rfl : s = .finished := hs.resolve_right fun hne => hne hnil
        obtain ⟨_, r, hr, hgood⟩ := hb.finished h.builder
        refine .inl ⟨closed, r, ?_, ?_, hgood⟩
        · simp only [herrors, List.isEmpty_nil, if_true]
        · rw [hgrows.builder]
          exact hr
    | cons e es =>
        refine .inr ⟨closed, .errors closed.errors, ?_, ?_, ?_, ?_⟩
        · simp only [herrors, List.isEmpty_cons, Bool.false_eq_true, if_false]
        · -- Whoever stops at the first error has not collected any.
          cases hstop : parser.mode.stopAtFirst with
          | false => rfl
          | true =>
              rcases hgrows.tolerated with hnone | ⟨hgo, _⟩
              · rw [hgrows.errors, hnone, List.append_nil, h.quiet hstop] at herrors
                cases herrors
              · rw [hgo] at hstop
                cases hstop
        · rw [herrors, List.length_cons]
          omega
        · have hle := hgrows.length_le h.errors
          omega
  · refine .inr ⟨closed, halt, rfl, ?_⟩
    refine Run.call_some h.errors ?_ hcall
    intro r hr
    exact hb.closed h.builder r (by rw [hr]; exact List.mem_singleton_self r)

/-- The turns of a parse come to an end: the last one has taken the end of the input or given the
parse up. -/
def Ends (parser : Parser β) (matcher : Matcher) (source : Text) : Prop :=
  ∃ turn, (parser.turns matcher source).getLast? = some turn ∧
    ((∃ halt, (turn.outcome parser.mode).next = .error halt) ∨
      (turn.outcome parser.mode).token.isEnd = true)

theorem ends (parser : Parser β) (matcher : Matcher) (source : Text) :
    parser.Ends matcher source :=
  Run.exists_last_turn (by rw [pending_opening]; exact Nat.lt_succ_self _)

/-- A parse is given up in one of its turns, or its turns lead to the last state, or errors have
been collected. -/
theorem loop_cases (hb : Builder.Sturdy Holds Good) :
    (∃ s run, parser.loop matcher source = (run, none) ∧ Run.Sane Holds parser.mode s run ∧
      (s = .finished ∨ run.errors ≠ [])) ∨
      ∃ run halt, parser.loop matcher source = (run, some halt) ∧ (halt.Proper parser.mode ∨
        (halt = .fault .danglingEscape ∧ ∃ l ∈ Text.lines source, Line.Dangles l)) := by
  obtain ⟨turn, hlast, hdone⟩ := parser.ends matcher source
  have hmem := List.mem_of_getLast? hlast
  have hsane := sane_turns hb turn hmem
  have hloop : parser.loop matcher source = _ := Run.steps_eq_of_last hlast
  rw [hloop]
  cases hnext : (turn.outcome parser.mode).next with
  | error halt =>
      refine .inr ⟨_, halt, rfl, ?_⟩
      have hs := state_ne_finished parser matcher source turn hmem
      refine (hsane.halts hb rfl hs (Run.advance_halts hnext)).imp_right ?_
      rintro ⟨rfl, l, hl, hpipe, hcells⟩
      refine ⟨rfl, l, ?_, hpipe, (Line.cells_eq_none l).mp hcells⟩
      have hend : turn.run.reader.next.1.isEnd = false := by
        rw [Token.isEnd, hl]
        rfl
      obtain ⟨l', hl', hpending⟩ := turn.run.reader.pending_next hend
      rw [hl] at hl'
      cases hl'
      refine lines_turns turn hmem l ?_
      rw [hpending]
      exact List.mem_cons_self
  | ok s =>
      have hgoes := Run.advance_goes hnext
      have hend : (turn.outcome parser.mode).token.isEnd = true := by
        rcases hdone with ⟨halt, hhalt⟩ | hend
        · rw [hnext] at hhalt
          cases hhalt
        · exact hend
      refine .inl ⟨s, _, rfl, hsane.goes hb rfl hgoes, ?_⟩
      rw [show (turn.outcome parser.mode).token.isEnd = _ from hgoes.isEnd] at hend
      cases hgoes with
      | moved a reading ha hask =>
          exact .inl ((State.next_eq_finished _ a ha).mpr ((Matcher.ask_yes_isEnd hask).mp hend))
      | skipped _ _ _ _ _ _ herrors =>
          refine .inr ?_
          rw [Run.Turn.outcome, herrors]
          simp

/-- With a builder that never fails, a parse ends in one of the ways it may. -/
theorem parse_orderly (hb : Builder.Sturdy Holds Good) :
    Orderly parser.stopAtFirst source Good (parser.parse matcher source).outcome := by
  have hproper : ∀ halt : Halt, halt.Proper parser.mode →
      Orderly parser.stopAtFirst source Good (.error halt) := by
    intro halt h
    cases halt with
    | error e => exact h
    | errors es => exact h
    | fault fault => exact h.elim
  rw [parse_eq, complete_start (call_opened (hb.opened parser.builder).1)]
  rcases loop_cases hb with ⟨s, run, hloop, hsane, hs⟩ | ⟨run, halt, hloop, hhalt⟩
  · rw [hloop]
    rcases ending_cases hb hsane hs with
      ⟨closed, r, hending, hr, hgood⟩ | ⟨closed, halt, hending, h⟩
    · simp only [hending, hr]
      exact hgood
    · simp only [hending]
      exact hproper halt h
  · rw [hloop]
    rcases hhalt with h | ⟨rfl, hline⟩
    · exact hproper halt h
    · exact ⟨rfl, hline⟩

/-- Parsing never fails inside. Whatever the source, the matcher and the way to treat errors, the
turns of a parse come to an end, and it ends with a result, with one error if it stops at the
first, or else with between one and eleven errors. The one fault left is a dangling escape, and
there is a line to blame for it. -/
theorem parse_never_fails_inside (stopAtFirst : Bool) (matcher : Matcher) (source : Text)
    (builder : DocumentBuilder) (listing : Listing) :
    (Parser.Ends { builder, stopAtFirst } matcher source ∧
      Orderly stopAtFirst source (fun d : Option Document => d.isSome = true)
        (Parser.parse { builder, stopAtFirst } matcher source).outcome) ∧
      Parser.Ends { builder := listing, stopAtFirst } matcher source ∧
      Orderly stopAtFirst source (fun _ : Text => True)
        (Parser.parse { builder := listing, stopAtFirst } matcher source).outcome :=
  ⟨⟨ends _ _ _, parse_orderly DocumentBuilder.sturdy⟩, ends _ _ _, parse_orderly Listing.sturdy⟩

end Parser

end FeatureFile
