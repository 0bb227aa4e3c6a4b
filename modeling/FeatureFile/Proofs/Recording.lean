import FeatureFile.Proofs.Turns

/-!
# Watching the builder

What a parse tells its builder can be watched without disturbing it: a `Recorder` hands every call
on to the builder inside it and notes the call together with the builder that received it. Its
answers are those of the builder inside, so that a parse with a recorder takes the same course as
the parse it watches; `Parser.parse_recording` says so. What is noted is therefore what the watched
parse does, and it is in these notes that "the tokens handed to the builder" and "the rules closed"
are found.

The equality is an instance of a more general one: a map between builders that commutes with their
operations carries runs to runs (`Run.complete_map`). What a run does with calls and errors does not
even need that the calls and the reader stay as they are (`Run.callAll_carry`).
-/

namespace FeatureFile

/-- A map between builders that commutes with taking calls. -/
def Builder.Commutes {β γ ρ σ : Type} [Builder β ρ] [Builder γ σ] (f : β → γ) : Prop :=
  ∀ c b, Builder.receive c (f b) = (f (Builder.receive c b).1, (Builder.receive c b).2)

/-- A map between builders that takes what was made from some calls to what is made from the calls
in another form. -/
def Builder.Carries {β γ ρ σ : Type} [Builder β ρ] [Builder γ σ] (g : Call → Call) (f : β → γ) :
    Prop :=
  ∀ c b, Builder.receive (g c) (f b) = (f (Builder.receive c b).1, (Builder.receive c b).2)

theorem Builder.Commutes.feed {β γ ρ σ : Type} [Builder β ρ] [Builder γ σ] {f : β → γ}
    (hf : Builder.Commutes f) (cs : List Call) (b : β) :
    Builder.feed cs (f b) = (f (Builder.feed cs b).1, (Builder.feed cs b).2) := by
  induction cs generalizing b with
  | nil => rfl
  | cons c cs ih =>
      refine Prod.ext ?_ ?_
      · rw [Builder.feed_cons_fst, hf c b, ih, Builder.feed_cons_fst]
      · rw [Builder.feed_cons_snd, hf c b, ih, Builder.feed_cons_snd]

namespace Run

variable {β γ ρ σ : Type}

/-- The same run with another builder. -/
def map (f : β → γ) (run : Run β) : Run γ := { run with builder := f run.builder }

/-- The same step with another builder. -/
def Step.map (f : β → γ) (o : Step β) : Step γ := { o with run := o.run.map f }

/-- The same run with another builder and another reader. -/
def carry (h : Reader → Reader) (f : β → γ) (run : Run β) : Run γ :=
  { run with reader := h run.reader, builder := f run.builder }

variable {mode : Mode} {f : β → γ} {h : Reader → Reader}

theorem report_carry {raised kept : ParseError} (run : Run β) :
    (run.carry h f).report mode raised kept =
      (run.report mode raised kept).map (Run.carry h f) id := by
  have herrors : (run.carry h f).errors = run.errors := rfl
  unfold report
  rw [herrors]
  split
  · rfl
  · split <;> rfl

theorem reportAll_carry (es : List (ParseError × ParseError)) (run : Run β) :
    (run.carry h f).reportAll mode es = (run.reportAll mode es).map (Run.carry h f) id := by
  induction es generalizing run with
  | nil => rfl
  | cons e es ih =>
      rw [reportAll, reportAll, report_carry]
      rcases run.report mode e.1 e.2 with ⟨mid, _ | halt⟩
      · exact ih mid
      · rfl

theorem refuse_carry (o : Option Refusal) (run : Run β) :
    (run.carry h f).refuse mode o = (run.refuse mode o).map (Run.carry h f) id := by
  match o with
  | none => rfl
  | some (.error e) => exact report_carry run
  | some (.errors es) =>
      rw [refuse, refuse]
      split
      · rfl
      · exact reportAll_carry _ run
  | some (.fault fault) => rfl

theorem report_map {raised kept : ParseError} (run : Run β) :
    (run.map f).report mode raised kept =
      (run.report mode raised kept).map (Run.map f) id :=
  report_carry (h := id) run

theorem reportAll_map (es : List (ParseError × ParseError)) (run : Run β) :
    (run.map f).reportAll mode es = (run.reportAll mode es).map (Run.map f) id :=
  reportAll_carry (h := id) es run

section Calls

variable [Builder β ρ] [Builder γ σ] {g : Call → Call} (hg : Builder.Carries g f)
include hg

theorem call_carry (c : Call) (run : Run β) :
    (run.carry h f).call mode (g c) = (run.call mode c).map (Run.carry h f) id := by
  have hreceive := hg c run.builder
  unfold call
  simp only [carry, hreceive]
  exact refuse_carry _ { run with builder := (Builder.receive c run.builder).1 }

theorem callAll_carry (cs : List Call) (run : Run β) :
    (run.carry h f).callAll mode (cs.map g) = (run.callAll mode cs).map (Run.carry h f) id := by
  induction cs generalizing run with
  | nil => rfl
  | cons c cs ih =>
      rw [List.map_cons, callAll, callAll, call_carry hg]
      rcases run.call mode c with ⟨mid, _ | halt⟩
      · exact ih mid
      · rfl

end Calls

variable [Builder β ρ] [Builder γ σ] (hf : Builder.Commutes f)
include hf

theorem call_map (c : Call) (run : Run β) :
    (run.map f).call mode c = (run.call mode c).map (Run.map f) id :=
  call_carry (g := id) (h := id) hf c run

theorem callAll_map (cs : List Call) (run : Run β) :
    (run.map f).callAll mode cs = (run.callAll mode cs).map (Run.map f) id := by
  have hcarry : (run.map f).callAll mode (cs.map id) = _ :=
    callAll_carry (g := id) (h := id) hf cs run
  rw [List.map_id] at hcarry
  exact hcarry

theorem advance_map (s : State) (run : Run β) :
    (run.map f).advance mode s = (run.advance mode s).map f := by
  have hdecision : (run.map f).decision mode s = run.decision mode s := rfl
  rw [advance_eq, advance_eq, hdecision]
  generalize run.decision mode s = trial
  have hheader : (Run.map f { run with
      matcher := trial.matcher, reader := trial.reader }).reportAll mode (refusals trial) = _ :=
    reportAll_map _ _
  rw [map] at hheader ⊢
  simp only [hheader]
  rcases reportAll mode (refusals trial)
    { run with matcher := trial.matcher, reader := trial.reader } with ⟨mid, _ | halt⟩
  · match trial.move with
    | .error fault => rfl
    | .ok none =>
        simp only [Prod.map, id, report_map]
        split
        · rfl
        · rcases mid.report mode (.unexpected trial.token s.expected)
            (.unexpected trial.token s.expected) with ⟨last, _ | halt⟩ <;> rfl
    | .ok (some move) =>
        simp only [Prod.map, id, callAll_map hf]
        rcases mid.callAll mode (callsOf move trial.token) with ⟨last, _ | halt⟩ <;> rfl
  · rfl

theorem steps_map (fuel : Nat) (s : State) (run : Run β) :
    (run.map f).steps mode fuel s = (run.steps mode fuel s).map (Run.map f) id := by
  induction fuel generalizing s run with
  | zero => rfl
  | succ fuel ih =>
      rw [steps, steps, advance_map hf]
      simp only [Step.map]
      cases (run.advance mode s).next with
      | error halt => rfl
      | ok next =>
          simp only [ih]
          split <;> rfl

theorem turns_map (fuel : Nat) (s : State) (run : Run β) :
    (run.map f).turns mode fuel s =
      (run.turns mode fuel s).map fun turn => ⟨turn.state, turn.run.map f⟩ := by
  induction fuel generalizing s run with
  | zero => rfl
  | succ fuel ih =>
      rw [turns, turns, advance_map hf]
      simp only [Step.map, List.map_cons]
      cases (run.advance mode s).next with
      | error halt => rfl
      | ok next =>
          simp only [ih]
          split <;> rfl

theorem complete_map (run : Run β) :
    (run.map f).complete mode = (run.complete mode).map (Run.map f) id := by
  rw [complete, complete, call_map hf]
  rcases run.call mode (.opened .document) with ⟨first, _ | halt⟩
  · simp only [Prod.map, id, steps_map hf]
    have hsize : (first.map f).reader.size = first.reader.size := rfl
    rw [hsize]
    rcases first.steps mode (first.reader.size + 1) .start with ⟨last, _ | halt⟩
    · simp only [call_map hf]
      rcases last.call mode (.closed .document) with ⟨closed, _ | halt⟩
      · have herrors : (closed.map f).errors = closed.errors := rfl
        simp only [Prod.map, id, herrors]
        split <;> rfl
      · rfl
    · rfl
  · rfl

end Run

/-- A run that is not given up is made of three parts, none of which is. -/
theorem Run.complete_none {β ρ : Type} [Builder β ρ] {mode : Mode} {run run' : Run β}
    (h : run.complete mode = (run', none)) :
    ∃ first last, run.call mode (.opened .document) = (first, none) ∧
      first.steps mode (first.reader.size + 1) .start = (last, none) ∧
      last.call mode (.closed .document) = (run', none) ∧ run'.errors = [] := by
  rw [complete] at h
  split at h
  · cases h
  · rename_i first hopen
    split at h
    · cases h
    · rename_i last hsteps
      split at h
      · cases h
      · rename_i closed hclose
        split at h
        · rename_i hnil
          cases h
          exact ⟨first, last, hopen, hsteps, hclose, List.isEmpty_iff.mp hnil⟩
        · cases h

/-! ## The recorder -/

/-- A builder that is watched: the calls so far, each with the builder that received it. -/
structure Recorder (β : Type) where
  builder : β
  log : List (Call × β) := []

/-- Each of some calls with the builder that receives it. -/
def Builder.trace {β ρ : Type} [Builder β ρ] : List Call → β → List (Call × β)
  | [], _ => []
  | c :: cs, b => (c, b) :: trace cs (receive c b).1

theorem Builder.trace_fst {β ρ : Type} [Builder β ρ] (cs : List Call) (b : β) :
    (trace cs b).map Prod.fst = cs := by
  induction cs generalizing b with
  | nil => rfl
  | cons c cs ih => rw [trace, List.map_cons, ih]

theorem Builder.trace_append {β ρ : Type} [Builder β ρ] (cs ds : List Call) (b : β) :
    trace (cs ++ ds) b = trace cs b ++ trace ds (feed cs b).1 := by
  induction cs generalizing b with
  | nil => rfl
  | cons c cs ih => rw [List.cons_append, trace, trace, ih, feed_cons_fst, List.cons_append]

theorem Builder.mem_of_mem_trace {β ρ : Type} [Builder β ρ] {cs : List Call} {b : β}
    {e : Call × β} (h : e ∈ trace cs b) : e.1 ∈ cs := by
  rw [← trace_fst cs b]
  exact List.mem_map_of_mem h

/-- The token that a call hands over. -/
def Call.token? : Call → Option Token
  | .read token => some token
  | _ => none

theorem Run.callsOf_token (a : Move) (t : Token) :
    (callsOf a t).filterMap Call.token? = [t] := by
  have hcloses : (a.closes.map Call.closed).filterMap Call.token? = [] := by
    simp [List.filterMap_map, Function.comp_def, Call.token?]
  have hopens : (a.opens.map Call.opened).filterMap Call.token? = [] := by
    simp [List.filterMap_map, Function.comp_def, Call.token?]
  rw [callsOf, List.filterMap_append, List.filterMap_append, hcloses, hopens]
  rfl

namespace Recorder

variable {β ρ : Type} [Builder β ρ]

/-- Hands a call on and notes it. -/
def receive (c : Call) (r : Recorder β) : Recorder β × Option Refusal :=
  let answer := Builder.receive c r.builder
  ({ builder := answer.1, log := r.log ++ [(c, r.builder)] }, answer.2)

instance : Builder (Recorder β) ρ where
  reset r := { builder := Builder.reset r.builder }
  receive := receive
  result r := Builder.result r.builder

theorem commutes : Builder.Commutes (builder : Recorder β → β) := fun _ _ => rfl

/-- The tokens handed to the builder, in order. -/
def tokens (r : Recorder β) : List Token := (r.log.map Prod.fst).filterMap Call.token?

theorem feed_eq (cs : List Call) (r : Recorder β) :
    Builder.feed cs r =
      ({ builder := (Builder.feed cs r.builder).1
         log := r.log ++ Builder.trace cs r.builder },
        (Builder.feed cs r.builder).2) := by
  induction cs generalizing r with
  | nil => simp [Builder.trace]
  | cons c cs ih =>
      have hrest := ih (Builder.receive c r).1
      refine Prod.ext ?_ ?_
      · rw [Builder.feed_cons_fst, hrest]
        simp only [Builder.receive, receive, Builder.trace, Builder.feed, List.append_assoc,
          List.singleton_append]
      · rw [Builder.feed_cons_snd, hrest]
        rfl

theorem tokens_feed (a : Move) (t : Token) (r : Recorder β) :
    (Builder.feed (Run.callsOf a t) r).1.tokens = r.tokens ++ [t] := by
  rw [feed_eq, tokens, List.map_append, List.filterMap_append, Builder.trace_fst,
    Run.callsOf_token, tokens]

end Recorder

/-! ## What is noted in a run -/

namespace Run

variable {β ρ : Type} (mode : Mode)

theorem report_builder (raised kept : ParseError) (run : Run β) :
    (run.report mode raised kept).1.builder = run.builder := by
  unfold report
  split
  · rfl
  · split <;> rfl

theorem reportAll_builder (es : List (ParseError × ParseError)) (run : Run β) :
    (run.reportAll mode es).1.builder = run.builder := by
  induction es generalizing run with
  | nil => rfl
  | cons e es ih =>
      have hfirst := report_builder mode e.1 e.2 run
      rw [reportAll]
      rcases hreport : run.report mode e.1 e.2 with ⟨mid, _ | halt⟩
      · rw [hreport] at hfirst
        exact (ih mid).trans hfirst
      · rw [hreport] at hfirst
        exact hfirst

theorem refuse_builder (o : Option Refusal) (run : Run β) :
    (run.refuse mode o).1.builder = run.builder := by
  match o with
  | none => rfl
  | some (.error e) => exact report_builder mode e e run
  | some (.errors es) =>
      rw [refuse]
      split
      · rfl
      · exact reportAll_builder mode _ run
  | some (.fault fault) => rfl

variable [Builder β ρ]

/-- Whether or not all calls are made: what is noted are these calls. -/
theorem callAll_log (cs : List Call) (run : Run (Recorder β)) :
    ∀ e ∈ (run.callAll mode cs).1.builder.log,
      e ∈ run.builder.log ∨ e ∈ Builder.trace cs run.builder.builder := by
  induction cs generalizing run with
  | nil =>
      intro e he
      exact .inl he
  | cons c cs ih =>
      intro e he
      have hcall : (run.call mode c).1.builder = (Recorder.receive c run.builder).1 :=
        refuse_builder mode _ _
      have hnoted : e ∈ (run.call mode c).1.builder.log →
          e ∈ run.builder.log ∨ e = (c, run.builder.builder) := by
        rw [hcall]
        intro he
        rcases List.mem_append.mp he with he | he
        · exact .inl he
        · exact .inr (List.mem_singleton.mp he)
      rw [callAll] at he
      rcases hmid : run.call mode c with ⟨mid, _ | halt⟩
      · rw [hmid] at he hnoted hcall
        rcases ih mid e he with he | he
        · rcases hnoted he with he | rfl
          · exact .inl he
          · exact .inr List.mem_cons_self
        · simp only at hcall
          rw [hcall] at he
          exact .inr (List.mem_cons_of_mem _ he)
      · rw [hmid] at he hnoted
        rcases hnoted he with he | rfl
        · exact .inl he
        · exact .inr List.mem_cons_self

/-- What is noted in a turn are calls of a move of the state. -/
theorem advance_log (s : State) (run : Run (Recorder β)) :
    ∀ e ∈ (run.advance mode s).run.builder.log, e ∈ run.builder.log ∨
      ∃ a ∈ s.moves, ∃ t, e ∈ Builder.trace (callsOf a t) run.builder.builder := by
  have hdec : s.Decides mode.hidden run.reader.next.1 run.matcher run.reader.next.2
      (run.decision mode s) := s.decide_decides _ _ _ _
  have hheader := reportAll_builder mode (refusals (run.decision mode s))
    { run with
      matcher := (run.decision mode s).matcher
      reader := (run.decision mode s).reader }
  intro e he
  rw [advance_eq] at he
  split at he
  · rename_i mid halt hmid
    rw [hmid] at hheader
    simp only at hheader
    rw [hheader] at he
    exact .inl he
  · rename_i mid hmid
    rw [hmid] at hheader
    simp only at hheader
    cases hdec with
    | broken a fault ha hmove =>
        simp only [hmove, hheader] at he
        exact .inl he
    | none hmove =>
        simp only [hmove] at he
        split at he
        · rw [hheader] at he
          exact .inl he
        · have hkept := report_builder mode (.unexpected (run.decision mode s).token s.expected)
            (.unexpected (run.decision mode s).token s.expected) mid
          split at he
          all_goals
            rename_i hreport
            rw [hreport] at hkept
            simp only at hkept
            rw [hkept, hheader] at he
            exact .inl he
    | found a reading ha hmove =>
        have hcalls := callAll_log mode (callsOf a (run.decision mode s).token) mid e
        rw [hheader] at hcalls
        simp only [hmove] at he
        split at he
        all_goals
          rename_i hall
          rw [hall] at hcalls
          rcases hcalls he with he | he
          · exact .inl he
          · exact .inr ⟨a, ha, _, he⟩

/-- What is noted in a run are calls of moves, each made in the turn of its state. -/
theorem steps_log (fuel : Nat) (s : State) (run : Run (Recorder β)) :
    ∀ e ∈ (run.steps mode fuel s).1.builder.log, e ∈ run.builder.log ∨
      ∃ turn ∈ run.turns mode fuel s, ∃ a ∈ turn.state.moves, ∃ t,
        e ∈ Builder.trace (callsOf a t) turn.run.builder.builder := by
  induction fuel generalizing s run with
  | zero =>
      intro e he
      exact .inl he
  | succ fuel ih =>
      intro e he
      have hturn := advance_log mode s run e
      have hhere : (∃ a ∈ s.moves, ∃ t,
          e ∈ Builder.trace (callsOf a t) run.builder.builder) →
          ∃ turn ∈ run.turns mode (fuel + 1) s, ∃ a ∈ turn.state.moves, ∃ t,
            e ∈ Builder.trace (callsOf a t) turn.run.builder.builder :=
        fun h => ⟨⟨s, run⟩, List.mem_cons_self, h⟩
      rw [steps] at he
      cases hnext : (run.advance mode s).next with
      | error halt =>
          simp only [hnext] at he
          exact (hturn he).imp_right hhere
      | ok next =>
          simp only [hnext] at he
          split at he
          · exact (hturn he).imp_right hhere
          · rename_i hend
            rcases ih next _ e he with he | ⟨turn, hmem, hmove⟩
            · exact (hturn he).imp_right hhere
            · refine .inr ⟨turn, ?_, hmove⟩
              rw [turns]
              refine List.mem_cons_of_mem _ ?_
              simp only [hnext]
              rw [if_neg hend]
              exact hmem

end Run

/-! ## Parses -/

namespace Parser

variable {β ρ : Type} [Builder β ρ]

/-- The same parser, watched. -/
def recording (parser : Parser β) : Parser (Recorder β) :=
  { builder := { builder := parser.builder }, stopAtFirst := parser.stopAtFirst }

/-- How the runs of a parser treat errors. -/
def mode (parser : Parser β) : Mode := { stopAtFirst := parser.stopAtFirst }

/-- The run of a parse before its first token: the document has been opened. -/
def opening (parser : Parser β) (matcher : Matcher) (source : Text) : Run β :=
  { reader := .ofText source, matcher := matcher.reset,
    builder := (Builder.receive (.opened .document) (Builder.reset parser.builder)).1 }

/-- The turns of a parse. -/
def turns (parser : Parser β) (matcher : Matcher) (source : Text) : List (Run.Turn β) :=
  (parser.opening matcher source).turns parser.mode ((Text.lines source).length + 1) .start

/-- The run of a parse behind its last turn, and whether it was given up. -/
def loop (parser : Parser β) (matcher : Matcher) (source : Text) : Run β × Option Halt :=
  (parser.opening matcher source).steps parser.mode ((Text.lines source).length + 1) .start

/-- The run of a parse before its document is opened. -/
def start (parser : Parser β) (matcher : Matcher) (source : Text) : Run β :=
  { reader := .ofText source, matcher := matcher.reset, builder := Builder.reset parser.builder }

/-- Whether a run behind its last turn is given up in the end: the document is closed, and then
there must be no errors. -/
def ending (parser : Parser β) (run : Run β) : Run β × Option Halt :=
  match run.call parser.mode (.closed .document) with
  | (run, some halt) => (run, some halt)
  | (run, none) => if run.errors.isEmpty then (run, none) else (run, some (.errors run.errors))

variable {parser : Parser β} {matcher : Matcher} {source : Text}

theorem parse_eq : parser.parse matcher source =
    { outcome :=
        match (parser.start matcher source).complete parser.mode with
        | (_, some halt) => .error halt
        | (run, none) => (Builder.result run.builder).mapError Halt.fault
      parser :=
        { builder := ((parser.start matcher source).complete parser.mode).1.builder
          stopAtFirst := parser.stopAtFirst }
      matcher := ((parser.start matcher source).complete parser.mode).1.matcher
      reader := ((parser.start matcher source).complete parser.mode).1.reader } := by
  change (match (parser.start matcher source).complete parser.mode with
    | (run, some halt) => _
    | (run, none) => _ : Parsed β ρ) = _
  rcases (parser.start matcher source).complete parser.mode with ⟨run, _ | halt⟩ <;> rfl

/-- A parse that is watched takes the course of the parse that is not. -/
theorem parse_recording (parser : Parser β) (matcher : Matcher) (source : Text) :
    (parser.recording.parse matcher source).outcome = (parser.parse matcher source).outcome := by
  have hmap : (parser.start matcher source).complete parser.mode =
      ((parser.recording.start matcher source).complete parser.mode).map
        (Run.map Recorder.builder) id :=
    Run.complete_map Recorder.commutes (parser.recording.start matcher source)
  have hmode : parser.recording.mode = parser.mode := rfl
  rw [parse_eq, parse_eq, hmap, hmode]
  rcases (parser.recording.start matcher source).complete parser.mode with ⟨run, _ | halt⟩ <;> rfl

theorem loop_recording (parser : Parser β) (matcher : Matcher) (source : Text) :
    parser.loop matcher source =
      (parser.recording.loop matcher source).map (Run.map Recorder.builder) id :=
  Run.steps_map Recorder.commutes _ _ (parser.recording.opening matcher source)

/-- If the opening of the document goes through, a parse is its turns and its ending. -/
theorem complete_start
    (hopen : (parser.start matcher source).call parser.mode (.opened .document) =
      (parser.opening matcher source, none)) :
    (parser.start matcher source).complete parser.mode =
      match parser.loop matcher source with
      | (run, some halt) => (run, some halt)
      | (run, none) => parser.ending run := by
  have hsize : (parser.opening matcher source).reader.size = (Text.lines source).length :=
    Nat.zero_add _
  rw [Run.complete, hopen]
  simp only [hsize]
  rfl

theorem call_opened
    (hopen : (Builder.receive (.opened .document) (Builder.reset parser.builder)).2 = none) :
    (parser.start matcher source).call parser.mode (.opened .document) =
      (parser.opening matcher source, none) :=
  Run.call_of_receive hopen

/-- A parse that comes to a result has no errors on the way, whatever the builder. -/
theorem loop_of_parse_ok {r : ρ} (h : (parser.parse matcher source).outcome = .ok r) :
    ∃ last closed, parser.loop matcher source = (last, none) ∧
      last.call parser.mode (.closed .document) = (closed, none) ∧ closed.errors = [] ∧
      (parser.parse matcher source).parser.builder = closed.builder := by
  rw [parse_eq] at h ⊢
  rcases hcomplete : (parser.start matcher source).complete parser.mode with ⟨closed, _ | halt⟩
  · obtain ⟨first, last, hopen, hloop, hclose, hnil⟩ := Run.complete_none hcomplete
    have hlast := Run.errors_of_call hclose hnil
    have hfirst : first.errors = [] := by
      have hprefix := Run.steps_errors_kept hloop
      rw [hlast] at hprefix
      exact List.prefix_nil.mp hprefix
    have hgrows := Run.call_none hopen
    have heq : first = parser.opening matcher source := by
      obtain ⟨reader, matcher', builder, errors⟩ := first
      obtain rfl : reader = .ofText source := hgrows.reader
      obtain rfl : matcher' = matcher.reset := hgrows.matcher
      obtain rfl := hgrows.builder
      obtain rfl : errors = [] := hfirst
      rfl
    refine ⟨last, closed, ?_, hclose, hnil, rfl⟩
    have hsize : first.reader.size = (Text.lines source).length := by
      rw [heq]
      exact Nat.zero_add _
    rw [loop, ← heq, ← hsize]
    exact hloop
  · rw [hcomplete] at h
    cases h

/-- The tokens that a parse hands to its builder. -/
def built (parser : Parser β) (matcher : Matcher) (source : Text) : List Token :=
  (parser.recording.parse matcher source).parser.builder.tokens

theorem tokens_call_closed (mode : Mode) (r : Rule) (run : Run (Recorder β)) :
    (run.call mode (.closed r)).1.builder.tokens = run.builder.tokens := by
  have hbuilder : (run.call mode (.closed r)).1.builder =
      (Recorder.receive (.closed r) run.builder).1 := Run.refuse_builder mode _ _
  rw [hbuilder, Recorder.tokens, Recorder.receive, List.map_append, List.filterMap_append]
  exact List.append_nil _

theorem tokens_ending (parser : Parser (Recorder β)) (run : Run (Recorder β)) :
    (parser.ending run).1.builder.tokens = run.builder.tokens := by
  rw [← tokens_call_closed parser.mode .document run, ending]
  rcases run.call parser.mode (.closed .document) with ⟨closed, _ | halt⟩
  · simp only []
    split <;> rfl
  · rfl

theorem built_eq
    (hopen : (Builder.receive (.opened .document) (Builder.reset parser.builder)).2 = none) :
    parser.built matcher source =
      (parser.recording.loop matcher source).1.builder.tokens := by
  have hcomplete : (parser.recording.start matcher source).complete parser.recording.mode = _ :=
    complete_start (call_opened hopen)
  rw [built, parse_eq, hcomplete]
  rcases parser.recording.loop matcher source with ⟨run, _ | halt⟩
  · exact tokens_ending parser.recording run
  · rfl

theorem pending_opening : (parser.opening matcher source).reader.pending = Text.lines source := rfl

end Parser

end FeatureFile
