import FeatureFile.Parser
import FeatureFile.Proofs.Calls
import FeatureFile.Proofs.Decision
import FeatureFile.Proofs.Upcoming

/-!
# The turns of a run

A run takes token after token, and each time a state deals with the token: that is a turn. This
module says once what a turn can do, and how turns make up a run.

A turn that leads on either moves, which hands the calls of one move to the builder, or skips the
token and collects an error for it; `Run.advance_goes` lists everything else that is then known.
A turn that does not lead on gives the run up, and `Run.advance_halts` lists the reasons.

`Run.turns` is the list of all turns of a run. What one turn preserves holds in all of them
(`Run.turns_induction`), and the last of them has taken the end of the input or given up: the fuel
that `Run.steps` is given covers every line and the end, so that it never decides anything.
-/

namespace FeatureFile

theorem State.decide_bare {s : State} {hidden : List TokenKind} {t : Token} {m : Matcher}
    {r : Reader} : (s.decide hidden t m r).token.bare = t.bare := Trial.run_bare

namespace Run

variable {β ρ : Type} [Builder β ρ] {mode : Mode} {s s' : State} {run : Run β} {o : Step β}

/-- What a state decides about the next token of a run. -/
def decision (mode : Mode) (s : State) (run : Run β) : Trial :=
  s.decide mode.hidden run.reader.next.1 run.matcher run.reader.next.2

/-- The errors of the headers that were refused on the way to a decision. -/
def headerErrors (mode : Mode) (s : State) (run : Run β) : List ParseError :=
  (refusals (run.decision mode s)).map Prod.snd

/-- What is known of a turn that leads on. -/
inductive Goes (mode : Mode) (s : State) (run : Run β) (o : Step β) : State → Prop where
  /-- The state makes a move. -/
  | moved (a : Move) (reading : Reading) (ha : a ∈ s.moves)
      (hask : run.matcher.ask mode.hidden a.kind run.reader.next.1 = .yes reading o.run.matcher)
      (htoken : o.token = run.reader.next.1.withReading reading)
      (hfirst : ∀ kind, s.rank kind < s.rank a.kind →
        (run.matcher.ask mode.hidden kind run.reader.next.1).isYes = false)
      (hreader : o.run.reader =
        if a.kind = .tagLine ∧ s.looksAhead = true then
          (run.reader.next.2.lookAhead (run.matcher.lookForExamples mode.hidden)).2
        else run.reader.next.2)
      (hguard : a.kind = .tagLine → s.looksAhead = true →
        a.guarded = (run.reader.next.2.lookAhead (run.matcher.lookForExamples mode.hidden)).1)
      (hbuilder : o.run.builder = (Builder.feed (callsOf a o.token) run.builder).1)
      (herrors : o.run.errors = run.errors ++ (run.headerErrors mode s ++
        (Builder.feed (callsOf a o.token) run.builder).2.flatMap Refusal.toErrors))
      (hlen : run.errors.length ≤ tolerance → o.run.errors.length ≤ tolerance)
      (hstop : mode.stopAtFirst = true → o.run.errors = run.errors) : Goes mode s run o a.next
  /-- The state has no move and leaves the token out. -/
  | skipped (hs : s ≠ .finished) (hbare : o.token.bare = run.reader.next.1.bare)
      (hmatcher : o.run.matcher = run.matcher) (hreader : o.run.reader = run.reader.next.2)
      (hno : ∀ a ∈ s.moves, (run.matcher.ask mode.hidden a.kind run.reader.next.1).isYes = false)
      (hbuilder : o.run.builder = run.builder)
      (herrors : o.run.errors = run.errors ++ (run.headerErrors mode s ++
        [.unexpected o.token s.expected]))
      (hlen : run.errors.length ≤ tolerance → o.run.errors.length ≤ tolerance)
      (hstop : mode.stopAtFirst = false) : Goes mode s run o s

/-- Why a turn does not lead on. -/
inductive Halts (mode : Mode) (s : State) (run : Run β) : Halt → Prop where
  /-- Errors were reported until the run gave up. -/
  | proper (halt : Halt)
      (h : run.errors.length ≤ tolerance → halt.Proper mode) : Halts mode s run halt
  /-- The token could not be tried. -/
  | untried (a : Move) (fault : Fault) (ha : a ∈ s.moves)
      (hask : run.matcher.ask mode.hidden a.kind run.reader.next.1 = .broken fault) :
      Halts mode s run (.fault fault)
  /-- The run went on behind its end. -/
  | lost (hs : s = .finished) : Halts mode s run (.fault (.unknownState s.number))
  /-- The builder refused a call of a move. -/
  | failed (a : Move) (reading : Reading) (halt : Halt) (ha : a ∈ s.moves) (next : Matcher)
      (hask : run.matcher.ask mode.hidden a.kind run.reader.next.1 = .yes reading next)
      (hfirst : ∀ kind, s.rank kind < s.rank a.kind →
        (run.matcher.ask mode.hidden kind run.reader.next.1).isYes = false)
      (h : run.errors.length ≤ tolerance →
        (∀ r ∈ (Builder.feed (callsOf a (run.reader.next.1.withReading reading))
          run.builder).2, r.IsError) → halt.Proper mode) : Halts mode s run halt

theorem advance_eq (mode : Mode) (s : State) (run : Run β) :
    run.advance mode s =
      match { run with
          matcher := (run.decision mode s).matcher
          reader := (run.decision mode s).reader }.reportAll mode
            (refusals (run.decision mode s)) with
      | (mid, some halt) =>
        { run := mid
          token := (run.decision mode s).refused.head?.getD (run.decision mode s).token
          next := .error halt }
      | (mid, none) =>
        match (run.decision mode s).move with
        | .error fault =>
          { run := mid, token := (run.decision mode s).token, next := .error (.fault fault) }
        | .ok none =>
          if s = .finished then
            { run := mid, token := (run.decision mode s).token,
              next := .error (.fault (.unknownState s.number)) }
          else
            match mid.report mode (.unexpected (run.decision mode s).token s.expected)
                (.unexpected (run.decision mode s).token s.expected) with
            | (last, some halt) =>
              { run := last, token := (run.decision mode s).token, next := .error halt }
            | (last, none) => { run := last, token := (run.decision mode s).token, next := .ok s }
        | .ok (some move) =>
          match mid.callAll mode (callsOf move (run.decision mode s).token) with
          | (last, some halt) =>
            { run := last, token := (run.decision mode s).token, next := .error halt }
          | (last, none) =>
            { run := last, token := (run.decision mode s).token, next := .ok move.next } := rfl

/-- Every turn leads on or gives up, for the reasons listed. -/
theorem advance_cases (mode : Mode) (s : State) (run : Run β) :
    (∃ s', (run.advance mode s).next = .ok s' ∧ Goes mode s run (run.advance mode s) s') ∨
      ∃ halt, (run.advance mode s).next = .error halt ∧ Halts mode s run halt := by
  have hdec : s.Decides mode.hidden run.reader.next.1 run.matcher run.reader.next.2
      (run.decision mode s) := s.decide_decides _ _ _ _
  have hbare : (run.decision mode s).token.bare = run.reader.next.1.bare := State.decide_bare
  rw [advance_eq]
  split
  · rename_i mid halt hheader
    refine .inr ⟨halt, rfl, .proper halt fun hlen => reportAll_some ?_ hheader⟩
    exact hlen
  · rename_i mid hheader
    have hmid := reportAll_none hheader
    cases hdec with
    | broken a fault ha hmove hask =>
        simp only [hmove]
        exact .inr ⟨_, rfl, .untried a fault ha hask⟩
    | none hmove hmatcher hreader hno =>
        simp only [hmove]
        split
        · rename_i hs
          exact .inr ⟨_, rfl, .lost hs⟩
        · rename_i hs
          split
          · rename_i last halt hreport
            refine .inr ⟨halt, rfl, .proper halt fun hlen => report_some ?_ hreport⟩
            exact hmid.length_le hlen
          · rename_i last hreport
            have hlast := hmid.trans (report_none hreport)
            refine .inl ⟨s, rfl, .skipped hs hbare ?_ ?_ hno ?_ hlast.errors hlast.length_le ?_⟩
            · exact hlast.matcher.trans hmatcher
            · exact hlast.reader.trans hreader
            · exact hlast.builder.trans hmid.builder
            · rcases hlast.tolerated with hnil | ⟨hstop, _⟩
              · exact absurd hnil (by simp)
              · exact hstop
    | found a reading ha hmove hask htoken hfirst hreader hguard =>
        simp only [hmove]
        split
        · rename_i last halt hcalls
          refine .inr ⟨halt, rfl, .failed a reading halt ha _ hask hfirst fun hlen hplain => ?_⟩
          refine callAll_some (hmid.length_le hlen) ?_ hcalls
          rw [hmid.builder, htoken]
          exact hplain
        · rename_i last hcalls
          have hfed := callAll_none hcalls
          rw [hmid.builder] at hfed
          have hlast := hmid.trans hfed
          refine .inl ⟨a.next, rfl, .moved a reading ha ?_ htoken hfirst ?_ hguard hlast.builder
            hlast.errors hlast.length_le ?_⟩
          · rw [hlast.matcher]
            exact hask
          · rw [hlast.reader]
            exact hreader
          · intro hstop
            rcases hlast.tolerated with hnil | ⟨hgo, _⟩
            · rw [hlast.errors, hnil, List.append_nil]
            · rw [hstop] at hgo
              cases hgo

/-- A turn that finds a move, with nothing refused by the state or by the builder. -/
theorem advance_of_found {a : Move} (hrefused : (run.decision mode s).refused = [])
    (hmove : (run.decision mode s).move = .ok (some a))
    (hfeed : (Builder.feed (callsOf a (run.decision mode s).token) run.builder).2 = []) :
    run.advance mode s =
      { run :=
          { run with
            matcher := (run.decision mode s).matcher
            reader := (run.decision mode s).reader
            builder := (Builder.feed (callsOf a (run.decision mode s).token) run.builder).1 }
        token := (run.decision mode s).token
        next := .ok a.next } := by
  have hnone : refusals (run.decision mode s) = [] := by
    rw [refusals, hrefused]
    rfl
  rw [advance_eq, hnone, reportAll]
  simp only [hmove]
  rw [callAll_of_feed]
  exact hfeed

theorem advance_goes (h : (run.advance mode s).next = .ok s') :
    Goes mode s run (run.advance mode s) s' := by
  rcases advance_cases mode s run with ⟨s'', hnext, hgoes⟩ | ⟨halt, hnext, _⟩
  · rw [h] at hnext
    cases hnext
    exact hgoes
  · rw [h] at hnext
    cases hnext

theorem advance_halts {halt : Halt} (h : (run.advance mode s).next = .error halt) :
    Halts mode s run halt := by
  rcases advance_cases mode s run with ⟨s'', hnext, _⟩ | ⟨halt', hnext, hhalts⟩
  · rw [h] at hnext
    cases hnext
  · rw [h] at hnext
    cases hnext
    exact hhalts

theorem Goes.bare (h : Goes mode s run o s') : o.token.bare = run.reader.next.1.bare := by
  cases h with
  | moved a reading ha hask htoken =>
      rw [htoken, Token.bare_withReading]
  | skipped hs hbare => exact hbare

theorem Goes.isEnd (h : Goes mode s run o s') : o.token.isEnd = run.reader.next.1.isEnd :=
  Token.isEnd_eq_of_bare_eq h.bare

theorem Goes.dialect_mem (h : Goes mode s run o s') (hm : run.matcher.dialect ∈ Dialect.table) :
    o.run.matcher.dialect ∈ Dialect.table := by
  cases h with
  | moved a reading ha hask => exact (Matcher.ask_yes hask).2.dialect_mem hm
  | skipped _ _ hmatcher =>
      rw [hmatcher]
      exact hm

theorem Goes.length_le (h : Goes mode s run o s') (hlen : run.errors.length ≤ tolerance) :
    o.run.errors.length ≤ tolerance := by
  cases h with
  | moved _ _ _ _ _ _ _ _ _ _ hle => exact hle hlen
  | skipped _ _ _ _ _ _ _ hle => exact hle hlen

/-- Errors stay where they are, and new ones come behind them. -/
theorem Goes.errors_kept (h : Goes mode s run o s') : run.errors <+: o.run.errors := by
  cases h with
  | moved _ _ _ _ _ _ _ _ _ herrors => exact ⟨_, herrors.symm⟩
  | skipped _ _ _ _ _ _ herrors => exact ⟨_, herrors.symm⟩

/-- A turn takes one of the pending lines, unless it takes the end of the input. -/
theorem Goes.pending (h : Goes mode s run o s') (hend : o.token.isEnd = false) :
    ∃ l, run.reader.next.1.line = some l ∧
      (l :: o.run.reader.pending).Perm run.reader.pending := by
  rw [h.isEnd] at hend
  obtain ⟨l, hl, hpending⟩ := run.reader.pending_next hend
  refine ⟨l, hl, ?_⟩
  rw [hpending]
  refine List.Perm.cons l ?_
  cases h with
  | moved _ _ _ _ _ _ hreader =>
      rw [hreader]
      split
      · exact Reader.pending_lookAhead Matcher.lookForExamples_bare _
      · exact List.Perm.refl _
  | skipped _ _ _ hreader =>
      rw [hreader]

theorem Goes.pending_length (h : Goes mode s run o s') (hend : o.token.isEnd = false) :
    o.run.reader.pending.length + 1 = run.reader.pending.length := by
  obtain ⟨l, _, hperm⟩ := h.pending hend
  rw [← hperm.length_eq, List.length_cons]

/-! ## All turns -/

/-- A state that is about to deal with the next token of a run. -/
structure Turn (β : Type) where
  state : State
  run : Run β

/-- What the state does. -/
def Turn.outcome (mode : Mode) (turn : Turn β) : Step β := turn.run.advance mode turn.state

/-- The turns of a run from a state on, up to the end of the input, as far as it is not given up
and at most as many as `fuel` says. -/
def turns (mode : Mode) : Nat → State → Run β → List (Turn β)
  | 0, _, _ => []
  | fuel + 1, s, run =>
    ⟨s, run⟩ ::
      match (run.advance mode s).next with
      | .error _ => []
      | .ok next =>
        if (run.advance mode s).token.isEnd then []
        else turns mode fuel next (run.advance mode s).run

/-- What holds at the start and is kept by every turn that leads on holds in all turns. -/
theorem turns_induction {P : State → Run β → Prop}
    (hstep : ∀ s run s', P s run → Goes mode s run (run.advance mode s) s' →
      (run.advance mode s).token.isEnd = false → P s' (run.advance mode s).run)
    (fuel : Nat) (s : State) (run : Run β) (h0 : P s run) :
    ∀ turn ∈ run.turns mode fuel s, P turn.state turn.run := by
  induction fuel generalizing s run with
  | zero =>
      intro turn hturn
      cases hturn
  | succ fuel ih =>
      intro turn hturn
      rw [turns] at hturn
      rcases List.mem_cons.mp hturn with rfl | hturn
      · exact h0
      · split at hturn
        · cases hturn
        · rename_i next hnext
          split at hturn
          · cases hturn
          · rename_i hend
            exact ih next _ (hstep s run next h0 (advance_goes hnext) (by simpa using hend)) turn
              hturn

/-- How the loop ends is how its last turn ends. -/
theorem steps_eq_of_last {fuel : Nat} {s : State} {run : Run β} {turn : Turn β}
    (h : (run.turns mode fuel s).getLast? = some turn) :
    run.steps mode fuel s =
      ((turn.outcome mode).run,
        match (turn.outcome mode).next with
        | .error halt => some halt
        | .ok _ => none) := by
  induction fuel generalizing s run with
  | zero => cases h
  | succ fuel ih =>
      rw [turns] at h
      rw [steps]
      cases hnext : (run.advance mode s).next with
      | error halt =>
          simp only [hnext, List.getLast?_singleton, Option.some.injEq] at h
          subst h
          simp only [Turn.outcome, hnext]
      | ok next =>
          simp only [hnext] at h
          simp only []
          split
          · rename_i hend
            rw [if_pos hend, List.getLast?_singleton, Option.some.injEq] at h
            subst h
            simp only [Turn.outcome, hnext]
          · rename_i hend
            rw [if_neg hend] at h
            cases fuel with
            | zero =>
                simp only [turns, List.getLast?_singleton, Option.some.injEq] at h
                subst h
                simp only [Turn.outcome, hnext, steps]
            | succ fuel =>
                refine ih ?_
                rw [turns] at h ⊢
                rw [List.getLast?_cons_cons] at h
                exact h

/-- With fuel for every line and the end, the last turn takes the end of the input or gives the run
up. -/
theorem exists_last_turn {fuel : Nat} {s : State} {run : Run β}
    (hfuel : run.reader.pending.length < fuel) :
    ∃ turn, (run.turns mode fuel s).getLast? = some turn ∧
      ((∃ halt, (turn.outcome mode).next = .error halt) ∨
        (turn.outcome mode).token.isEnd = true) := by
  induction fuel generalizing s run with
  | zero => omega
  | succ fuel ih =>
      rw [turns]
      cases hnext : (run.advance mode s).next with
      | error halt =>
          exact ⟨⟨s, run⟩, rfl, .inl ⟨halt, hnext⟩⟩
      | ok next =>
          simp only []
          split
          · rename_i hend
            exact ⟨⟨s, run⟩, rfl, .inr hend⟩
          · rename_i hend
            have hlength := (advance_goes hnext).pending_length (by simpa using hend)
            have hless : (run.advance mode s).run.reader.pending.length < fuel := by omega
            obtain ⟨turn, hlast, hdone⟩ := ih (s := next) hless
            refine ⟨turn, ?_, hdone⟩
            rw [List.getLast?_cons, hlast]
            rfl

/-- The turns from a turn on are those of its own run. -/
theorem exists_turns_of_append {fuel : Nat} {s : State} {run : Run β}
    {before behind : List (Turn β)} {turn : Turn β}
    (hfuel : run.reader.pending.length < fuel)
    (h : run.turns mode fuel s = before ++ turn :: behind) :
    ∃ fuel, turn.run.reader.pending.length < fuel ∧
      turn.run.turns mode fuel turn.state = turn :: behind := by
  induction before generalizing fuel s run with
  | nil =>
      refine ⟨fuel, ?_⟩
      cases fuel with
      | zero => cases h
      | succ fuel =>
          have hturn : ⟨s, run⟩ = turn := by
            rw [turns] at h
            exact (List.cons.inj h).1
          subst hturn
          exact ⟨hfuel, h⟩
  | cons first before ih =>
      cases fuel with
      | zero => cases h
      | succ fuel =>
          rw [turns] at h
          have hrest := (List.cons.inj h).2
          split at hrest
          · exact absurd hrest.symm (by simp)
          · next next hnext =>
              split at hrest
              · exact absurd hrest.symm (by simp)
              · next hend =>
                  have hlength := (advance_goes hnext).pending_length (by simpa using hend)
                  exact ih (by omega) hrest

/-- A run that goes on to the end is one turn and the rest, or one turn that takes the end. -/
theorem steps_inv {fuel : Nat} {run' : Run β}
    (h : run.steps mode (fuel + 1) s = (run', none)) :
    ∃ next, (run.advance mode s).next = .ok next ∧
      ((run.reader.next.1.isEnd = true ∧ run' = (run.advance mode s).run ∧
        run.turns mode (fuel + 1) s = [⟨s, run⟩]) ∨
      (run.reader.next.1.isEnd = false ∧
        (run.advance mode s).run.steps mode fuel next = (run', none) ∧
        run.turns mode (fuel + 1) s =
          ⟨s, run⟩ :: (run.advance mode s).run.turns mode fuel next)) := by
  rw [steps] at h
  rw [turns]
  cases hnext : (run.advance mode s).next with
  | error halt =>
      rw [hnext] at h
      cases h
  | ok next =>
      refine ⟨next, rfl, ?_⟩
      simp only [hnext, (advance_goes hnext).isEnd] at h ⊢
      cases hend : run.reader.next.1.isEnd with
      | true =>
          rw [hend, if_pos rfl] at h
          cases h
          exact .inl ⟨rfl, rfl, rfl⟩
      | false =>
          rw [hend, if_neg Bool.false_ne_true] at h
          exact .inr ⟨rfl, h, rfl⟩

theorem steps_errors_kept {fuel : Nat} {s : State} {run run' : Run β}
    (h : run.steps mode fuel s = (run', none)) : run.errors <+: run'.errors := by
  induction fuel generalizing s run with
  | zero =>
      cases h
      exact List.prefix_rfl
  | succ fuel ih =>
      obtain ⟨next, hnext, hcases⟩ := steps_inv h
      have hturn := (advance_goes hnext).errors_kept
      rcases hcases with ⟨_, rfl, _⟩ | ⟨_, hsteps, _⟩
      · exact hturn
      · exact hturn.trans (ih hsteps)

end Run

end FeatureFile
