import FeatureFile.Message.Stream
import FeatureFile.Proofs.Sequence
import FeatureFile.Session

/-!
# Parses without a past

Parsers and matchers are used again and again, in any combination, and several parsers may share one
builder. A parse leaves all of them as it ends, which can be anywhere: with rules open and comments
gathered, with another dialect in force, inside a doc string. None of that reaches the next parse.

A parse starts by resetting what it uses, and a reset keeps only what an object was set up with: the
style and the default dialect of a matcher, and whether a parser stops at the first error. So there
are two things to show. What a parse comes to depends on nothing else (`Desk.outcome_eq`). And a
parse does not change it: the matcher that it leaves behind is set up as before, however the parse
ends (`Parser.parseReader_fresh`), and this has to be followed through every turn of a run.

`Session.outcomes_forget_history` puts both together, for sessions and for streams of messages.
-/

namespace FeatureFile

/-! ## What a run leaves of its matcher -/

/-- A new matcher that is set up in the same way. -/
def Matcher.fresh (m : Matcher) : Matcher := .new m.style m.default

theorem Matcher.reset_fresh (m : Matcher) : m.fresh.reset = m.reset := rfl

theorem Matcher.fresh_reset (m : Matcher) : m.reset.fresh = m.fresh := rfl

theorem Matcher.Follows.fresh_eq {m next : Matcher} {kind : TokenKind}
    (h : m.Follows kind next) : next.fresh = m.fresh := by
  rw [fresh, fresh, h.style_eq, h.default_eq]

theorem Trial.run_fresh {hidden : List TokenKind} {moves : List Move} {trial : Trial} :
    (run hidden moves trial).matcher.fresh = trial.matcher.fresh := by
  induction moves generalizing trial with
  | nil => rfl
  | cons move moves ih =>
      rw [run_cons]
      split
      · exact ih
      · rfl
      · exact ih
      · next hask =>
          have hkept := (Matcher.ask_yes hask).2.fresh_eq
          split
          · split
            · exact hkept
            · exact ih.trans hkept
          · exact hkept

namespace Run

variable {β ρ : Type} {mode : Mode}

/-- What holds of a run and is kept by what comes next holds in the end, also if the run is given
up. -/
theorem andThen_keeps {P : Run β → Prop} {x : Run β × Option Halt}
    {f : Run β → Run β × Option Halt} (hx : P x.1) (hf : ∀ run, P run → P (f run).1) :
    P (andThen x f).1 := by
  obtain ⟨run, _ | halt⟩ := x
  · exact hf run hx
  · exact hx

theorem report_matcher (raised kept : ParseError) (run : Run β) :
    (run.report mode raised kept).1.matcher = run.matcher := by
  unfold report
  split
  · rfl
  · split <;> rfl

theorem reportAll_matcher (es : List (ParseError × ParseError)) (run : Run β) :
    (run.reportAll mode es).1.matcher = run.matcher := by
  induction es generalizing run with
  | nil => rfl
  | cons e es ih =>
      rw [reportAll_cons]
      exact andThen_keeps (P := fun mid => mid.matcher = run.matcher) (report_matcher _ _ _)
        fun mid hmid => (ih mid).trans hmid

theorem refuse_matcher (o : Option Refusal) (run : Run β) :
    (run.refuse mode o).1.matcher = run.matcher := by
  match o with
  | none => rfl
  | some (.error e) => exact report_matcher e e run
  | some (.errors es) =>
      rw [refuse]
      split
      · rfl
      · exact reportAll_matcher _ run
  | some (.fault fault) => rfl

variable [Builder β ρ]

theorem call_matcher (c : Call) (run : Run β) : (run.call mode c).1.matcher = run.matcher :=
  refuse_matcher _ { run with builder := (Builder.receive c run.builder).1 }

theorem callAll_matcher (cs : List Call) (run : Run β) :
    (run.callAll mode cs).1.matcher = run.matcher := by
  induction cs generalizing run with
  | nil => rfl
  | cons c cs ih =>
      rw [callAll_cons]
      exact andThen_keeps (P := fun mid => mid.matcher = run.matcher) (call_matcher _ _)
        fun mid hmid => (ih mid).trans hmid

theorem settle_matcher (s : State) (trial : Trial) (run : Run β) :
    (run.settle mode s trial).1.matcher = run.matcher := by
  unfold settle
  split
  · rfl
  · split
    · rfl
    · exact report_matcher _ _ _
  · exact callAll_matcher _ _

/-- The matcher behind a turn is the one with which the state has decided. -/
theorem advance_matcher (s : State) (run : Run β) :
    (run.advance mode s).run.matcher = (run.decision mode s).matcher := by
  change (run.advance mode s).ended.1.matcher = _
  rw [ended_advance]
  exact andThen_keeps (P := fun mid => mid.matcher = (run.decision mode s).matcher)
    (reportAll_matcher _ _) fun mid hmid => (settle_matcher _ _ mid).trans hmid

theorem advance_fresh (s : State) (run : Run β) :
    (run.advance mode s).run.matcher.fresh = run.matcher.fresh := by
  rw [advance_matcher]
  exact Trial.run_fresh

theorem steps_fresh (fuel : Nat) (s : State) (run : Run β) :
    (run.steps mode fuel s).1.matcher.fresh = run.matcher.fresh := by
  induction fuel generalizing s run with
  | zero => rfl
  | succ fuel ih =>
      rw [steps_succ]
      refine andThen_keeps (P := fun next => next.matcher.fresh = run.matcher.fresh)
        (advance_fresh s run) fun next hnext => ?_
      split
      · exact hnext
      · exact (ih _ next).trans hnext

theorem complete_fresh (run : Run β) :
    (run.complete mode).1.matcher.fresh = run.matcher.fresh := by
  have hcall : ∀ (c : Call) (mid : Run β), mid.matcher.fresh = run.matcher.fresh →
      (mid.call mode c).1.matcher.fresh = run.matcher.fresh := by
    intro c mid hmid
    rw [call_matcher, hmid]
  rw [complete_eq]
  refine andThen_keeps (P := fun next => next.matcher.fresh = run.matcher.fresh)
    (hcall _ run rfl) fun first hfirst => ?_
  refine andThen_keeps (P := fun next => next.matcher.fresh = run.matcher.fresh)
    ((steps_fresh _ _ first).trans hfirst) fun last hlast => ?_
  refine andThen_keeps (P := fun next => next.matcher.fresh = run.matcher.fresh)
    (hcall _ last hlast) fun closed hclosed => ?_
  split <;> exact hclosed

end Run

/-! ## Parsers -/

namespace Parser

variable {β ρ : Type} [Builder β ρ]

/-- However a parse ends, its matcher is set up as before. -/
theorem parseReader_fresh (parser : Parser β) (m : Matcher) (r : Reader) :
    (parser.parseReader m r).matcher.fresh = m.fresh ∧
      (parser.parseReader m r).parser.stopAtFirst = parser.stopAtFirst := by
  have hkept : (Run.complete { stopAtFirst := parser.stopAtFirst }
      { reader := r, matcher := m.reset,
        builder := Builder.reset parser.builder : Run β }).1.matcher.fresh = m.fresh :=
    (Run.complete_fresh _).trans m.fresh_reset
  unfold parseReader
  simp only []
  split
  · next h =>
      rw [h] at hkept
      exact ⟨hkept, rfl⟩
  · next h =>
      rw [h] at hkept
      exact ⟨hkept, rfl⟩

theorem parseIntake_fresh (parser : Parser β) (m : Matcher) (intake : Intake) :
    (parser.parseIntake m intake).matcher.fresh = m.fresh ∧
      (parser.parseIntake m intake).parser.stopAtFirst = parser.stopAtFirst := by
  unfold parseIntake
  simp only []
  split <;> exact parseReader_fresh parser m intake.reader

/-- A parse depends on what is left of its builder when that is reset, and on how its matcher is set
up. -/
theorem parse_congr {b c : β} (hreset : (Builder.reset b : β) = Builder.reset c)
    (stopAtFirst : Bool) (m : Matcher) (source : Text) :
    parse { builder := b, stopAtFirst } m source =
      parse { builder := c, stopAtFirst } m.fresh source := by
  simp only [parse, parseReader, hreset, Matcher.reset_fresh]

theorem parseIntake_ofText (parser : Parser β) (m : Matcher) (source : Text) :
    parser.parseIntake m (.ofText source) = parser.parse m source := rfl

end Parser

namespace Desk

/-- A new parser of the same sort that treats errors in the same way. -/
def fresh : Desk → Desk
  | .document p => .document { builder := {}, stopAtFirst := p.stopAtFirst }
  | .listing p => .listing { builder := {}, stopAtFirst := p.stopAtFirst }
  | .shared stopAtFirst => .shared stopAtFirst

/-- What a new parser of the same sort, with a new builder, makes of a source with a new matcher. -/
def freshOutcome (desk : Desk) (m : Matcher) (source : Text) : Except Halt Product :=
  match desk with
  | .document { stopAtFirst, .. } | .shared stopAtFirst =>
    (Parser.parse { builder := ({} : DocumentBuilder), stopAtFirst } (.new m.style m.default)
      source).outcome.map .document
  | .listing { stopAtFirst, .. } =>
    (Parser.parse { builder := ({} : Listing), stopAtFirst } (.new m.style m.default)
      source).outcome.map .listing

theorem freshOutcome_fresh (desk : Desk) (m : Matcher) (source : Text) :
    desk.fresh.freshOutcome m.fresh source = desk.freshOutcome m source := by
  cases desk <;> rfl

/-- What the parser, its builder, the shared builder and the matcher have been through makes no
difference. -/
theorem outcome_eq (desk : Desk) (shared : DocumentBuilder) (m : Matcher) (source : Text) :
    (desk.parseIntake shared m (.ofText source)).1 = desk.freshOutcome m source := by
  cases desk with
  | document p =>
      simp only [parseIntake, Parser.parseIntake_ofText, freshOutcome]
      exact congrArg (fun parsed => Except.map _ (Parsed.outcome parsed))
        (Parser.parse_congr rfl p.stopAtFirst m source)
  | listing p =>
      simp only [parseIntake, Parser.parseIntake_ofText, freshOutcome]
      exact congrArg (fun parsed => Except.map _ (Parsed.outcome parsed))
        (Parser.parse_congr rfl p.stopAtFirst m source)
  | shared stopAtFirst =>
      simp only [parseIntake, Parser.parseIntake_ofText, freshOutcome]
      exact congrArg (fun parsed => Except.map _ (Parsed.outcome parsed))
        (Parser.parse_congr rfl stopAtFirst m source)

theorem parseIntake_fresh (desk : Desk) (shared : DocumentBuilder) (m : Matcher)
    (intake : Intake) :
    (desk.parseIntake shared m intake).2.1.fresh = desk.fresh ∧
      (desk.parseIntake shared m intake).2.2.2.fresh = m.fresh := by
  cases desk with
  | document p =>
      obtain ⟨hm, hstop⟩ := p.parseIntake_fresh m intake
      exact ⟨by simp only [parseIntake, fresh, hstop], hm⟩
  | listing p =>
      obtain ⟨hm, hstop⟩ := p.parseIntake_fresh m intake
      exact ⟨by simp only [parseIntake, fresh, hstop], hm⟩
  | shared stopAtFirst => exact ⟨rfl, (Parser.parseIntake_fresh _ m intake).1⟩

theorem fresh_setStop (stopAtFirst : Bool) (desk : Desk) :
    (desk.setStop stopAtFirst).fresh = desk.fresh.setStop stopAtFirst := by
  cases desk <;> rfl

end Desk

/-! ## Streams of messages -/

namespace Stream

/-- A new stream with the same options and names, a new parser and a new matcher. -/
def fresh (s : Stream) : Stream where
  options := s.options
  names := s.names
  parser := { builder := {}, stopAtFirst := s.parser.stopAtFirst }
  matcher := s.matcher.fresh

theorem respond_fst (s : Stream) (message : Json) :
    (s.respond message).1 = (s.fresh.respond message).1 := by
  have hparse : ∀ source, s.parser.parse s.matcher source =
      s.fresh.parser.parse s.fresh.matcher source := fun source =>
    Parser.parse_congr rfl s.parser.stopAtFirst s.matcher source
  unfold respond
  split
  · rfl
  · rfl
  · simp only [hparse]
    split <;> rfl
  · rfl

theorem respond_fresh (s : Stream) (message : Json) : (s.respond message).2.fresh = s.fresh := by
  have hparse : ∀ source, fresh { s with
      parser := (s.parser.parse s.matcher source).parser,
      matcher := (s.parser.parse s.matcher source).matcher } = s.fresh := by
    intro source
    obtain ⟨hm, hstop⟩ := s.parser.parseReader_fresh s.matcher (.ofText source)
    simp only [fresh, Parser.parse, hm, hstop]
  unfold respond
  split
  · rfl
  · rfl
  · simp only []
    split <;> exact hparse _
  · rfl

/-- The answers to messages that come one after the other. -/
def answers (s : Stream) : List Json → List (Except Fault (List Message))
  | [] => []
  | message :: messages => (s.respond message).1 :: (s.respond message).2.answers messages

theorem answers_eq (s : Stream) (messages : List Json) :
    s.answers messages = messages.map fun message => (s.fresh.respond message).1 := by
  induction messages generalizing s with
  | nil => rfl
  | cons message messages ih =>
      rw [answers, ih, respond_fresh, respond_fst, List.map_cons]

end Stream

/-! ## Sessions -/

namespace Session

/-- Answers a message with the shared builder and with matcher `j`, if there is such. -/
def respond (s : Session) (options : StreamOptions) (names : CharNames)
    (stopAtFirst : Bool) (j : Nat) (message : Json) :
    Option (Except Fault (List Message) × Session) := do
  let m ← s.matchers[j]?
  let (answer, stream) := Stream.respond
    { options, names, parser := { builder := s.shared, stopAtFirst }, matcher := m } message
  some (answer,
    { s with matchers := s.matchers.set j stream.matcher, shared := stream.parser.builder })

/-- What can be asked of a session. -/
inductive Request where
  /-- To parse a source with parser `i` and matcher `j`. -/
  | parse (i j : Nat) (source : Text)
  /-- To answer a message with the shared builder and matcher `j`. -/
  | respond (options : StreamOptions) (names : CharNames) (stopAtFirst : Bool) (j : Nat)
      (message : Json)
  /-- To set whether parser `i` stops at the first error. -/
  | setStop (i : Nat) (stopAtFirst : Bool)

/-- The session behind a request. What asks for a parser or a matcher that is not there changes
nothing. -/
def serve (s : Session) : Request → Session
  | .parse i j source => ((s.parse i j source).map Prod.snd).getD s
  | .respond options names stopAtFirst j message =>
    ((s.respond options names stopAtFirst j message).map Prod.snd).getD s
  | .setStop i stopAtFirst => s.setStop i stopAtFirst

/-- The session behind a sequence of requests. -/
def after (s : Session) (history : List Request) : Session := history.foldl serve s

/-- Parsers with the settings that a history makes, and with nothing else of it. -/
def adjust (desks : List Desk) : List Request → List Desk
  | [] => desks
  | .setStop i stopAtFirst :: history =>
    adjust (desks.modify i (Desk.setStop stopAtFirst)) history
  | _ :: history => adjust desks history

theorem map_set_of_eq {α γ : Type} {f : α → γ} {xs : List α} {i : Nat} {x y : α}
    (h : xs[i]? = some x) (hxy : f y = f x) : (xs.set i y).map f = xs.map f := by
  obtain ⟨hi, rfl⟩ := List.getElem?_eq_some_iff.1 h
  rw [List.map_set, hxy, ← List.getElem_map f (h := by simpa using hi), List.set_getElem_self]

theorem serve_parse (s : Session) (i j : Nat) (source : Text) :
    s.serve (.parse i j source) = s ∨ ∃ desk desk' m m' shared,
      s.desks[i]? = some desk ∧ s.matchers[j]? = some m ∧ desk'.fresh = desk.fresh ∧
      m'.fresh = m.fresh ∧ s.serve (.parse i j source) =
        { desks := s.desks.set i desk', matchers := s.matchers.set j m', shared } := by
  rw [serve, parse]
  cases hdesk : s.desks[i]? with
  | none => exact .inl rfl
  | some desk =>
      cases hm : s.matchers[j]? with
      | none => exact .inl rfl
      | some m =>
          have hfresh := desk.parseIntake_fresh s.shared m (.ofText source)
          exact .inr ⟨desk, _, m, _, _, rfl, rfl, hfresh.1, hfresh.2, rfl⟩

theorem serve_respond (s : Session) (options : StreamOptions) (names : CharNames)
    (stopAtFirst : Bool) (j : Nat) (message : Json) :
    s.serve (.respond options names stopAtFirst j message) = s ∨ ∃ m m' shared,
      s.matchers[j]? = some m ∧ m'.fresh = m.fresh ∧
      s.serve (.respond options names stopAtFirst j message) =
        { s with matchers := s.matchers.set j m', shared } := by
  rw [serve, respond]
  cases hm : s.matchers[j]? with
  | none => exact .inl rfl
  | some m =>
      have hfresh := congrArg Stream.matcher (Stream.respond_fresh
        { options, names, parser := { builder := s.shared, stopAtFirst }, matcher := m } message)
      exact .inr ⟨m, _, _, rfl, hfresh, rfl⟩

theorem serve_desks (s : Session) (request : Request) :
    (s.serve request).desks.map Desk.fresh = (adjust s.desks [request]).map Desk.fresh := by
  cases request with
  | parse i j source =>
      obtain h | ⟨_, _, _, _, _, hdesk, _, hfresh, _, h⟩ := s.serve_parse i j source
      · rw [h]
        rfl
      · rw [h]
        exact map_set_of_eq hdesk hfresh
  | respond options names stopAtFirst j message =>
      obtain h | ⟨_, _, _, _, _, h⟩ := s.serve_respond options names stopAtFirst j message
      · rw [h]
        rfl
      · rw [h]
        rfl
  | setStop i stopAtFirst => rfl

theorem serve_matchers (s : Session) (request : Request) :
    (s.serve request).matchers.map Matcher.fresh = s.matchers.map Matcher.fresh := by
  cases request with
  | parse i j source =>
      obtain h | ⟨_, _, _, _, _, _, hm, _, hfresh, h⟩ := s.serve_parse i j source
      · rw [h]
      · rw [h]
        exact map_set_of_eq hm hfresh
  | respond options names stopAtFirst j message =>
      obtain h | ⟨_, _, _, hm, hfresh, h⟩ := s.serve_respond options names stopAtFirst j message
      · rw [h]
      · rw [h]
        exact map_set_of_eq hm hfresh
  | setStop i stopAtFirst => rfl

theorem map_fresh_modify (desks : List Desk) (i : Nat) (stopAtFirst : Bool) :
    (desks.modify i (Desk.setStop stopAtFirst)).map Desk.fresh =
      (desks.map Desk.fresh).modify i (Desk.setStop stopAtFirst) := by
  apply List.ext_getElem?
  intro k
  simp only [List.getElem?_map, List.getElem?_modify]
  cases desks[k]? with
  | none => rfl
  | some desk =>
      by_cases h : i = k
      · simp [h, Desk.fresh_setStop]
      · simp [h]

/-- Settings are made on new parsers as on used ones. -/
theorem adjust_fresh (desks : List Desk) (history : List Request) :
    (adjust desks history).map Desk.fresh = adjust (desks.map Desk.fresh) history := by
  induction history generalizing desks with
  | nil => rfl
  | cons request history ih =>
      cases request with
      | setStop i stopAtFirst =>
          rw [adjust, adjust, ih, map_fresh_modify]
      | parse i j source => exact ih desks
      | respond options names stopAtFirst j message => exact ih desks

/-- Of a history, the parsers keep the settings that it has made. -/
theorem after_desks (s : Session) (history : List Request) :
    (s.after history).desks.map Desk.fresh = (adjust s.desks history).map Desk.fresh := by
  induction history generalizing s with
  | nil => rfl
  | cons request history ih =>
      have hrest := ih (s.serve request)
      rw [adjust_fresh, serve_desks, ← adjust_fresh] at hrest
      refine hrest.trans ?_
      cases request <;> rfl

/-- Of a history, the matchers keep nothing. -/
theorem after_matchers (s : Session) (history : List Request) :
    (s.after history).matchers.map Matcher.fresh = s.matchers.map Matcher.fresh := by
  induction history generalizing s with
  | nil => rfl
  | cons request history ih => exact (ih (s.serve request)).trans (s.serve_matchers request)

theorem parse_fst (s : Session) (i j : Nat) (source : Text) :
    (s.parse i j source).map Prod.fst =
      (s.desks.map Desk.fresh)[i]?.bind fun desk =>
        (s.matchers.map Matcher.fresh)[j]?.map fun m => desk.freshOutcome m source := by
  unfold parse
  rw [List.getElem?_map, List.getElem?_map]
  cases s.desks[i]? with
  | none => rfl
  | some desk =>
      cases s.matchers[j]? with
      | none => rfl
      | some m =>
          exact congrArg some ((desk.outcome_eq s.shared m source).trans
            (desk.freshOutcome_fresh m source).symm)

theorem respond_fst (s : Session) (options : StreamOptions) (names : CharNames)
    (stopAtFirst : Bool) (j : Nat) (message : Json) :
    (s.respond options names stopAtFirst j message).map Prod.fst =
      (s.matchers.map Matcher.fresh)[j]?.map fun m =>
        (Stream.respond { options, names, parser := { builder := {}, stopAtFirst }, matcher := m }
          message).1 := by
  unfold respond
  rw [List.getElem?_map]
  cases s.matchers[j]? with
  | none => rfl
  | some m => exact congrArg some (Stream.respond_fst _ message)

/-- No request can tell what has been asked before. A parse comes to what a new parser of the same
sort, with a new builder and a new matcher, makes of the source, with the settings made meanwhile;
an answer is that of a new stream; and the answers of a stream are those of new streams with its
options, message by message. -/
theorem outcomes_forget_history (s : Session) (history : List Request) :
    (∀ i j source, ((s.after history).parse i j source).map Prod.fst =
      (adjust s.desks history)[i]?.bind fun desk =>
        s.matchers[j]?.map fun m => desk.freshOutcome m source) ∧
    (∀ options names stopAtFirst j message,
      ((s.after history).respond options names stopAtFirst j message).map Prod.fst =
        s.matchers[j]?.map fun m =>
          (Stream.respond
            { options, names, parser := { builder := {}, stopAtFirst },
              matcher := .new m.style m.default } message).1) ∧
    ∀ (stream : Stream) (messages : List Json), stream.answers messages =
      messages.map fun message => (stream.fresh.respond message).1 := by
  refine ⟨fun i j source => ?_, fun options names stopAtFirst j message => ?_, Stream.answers_eq⟩
  · rw [parse_fst, after_desks, after_matchers, List.getElem?_map, List.getElem?_map]
    simp only [Option.bind_map, Option.map_map, Function.comp_def, Desk.freshOutcome_fresh]
  · rw [respond_fst, after_matchers, List.getElem?_map, Option.map_map]
    rfl

end Session

end FeatureFile
