import FeatureFile.Proofs.LeftOut

/-!
# Looking ahead for examples

Tags inside a scenario outline belong to an examples block or to the next scenario, and only what
stands behind them tells. So the parser looks ahead, over tags, comments and blank lines, up to the
first line that is none of them or to the end of the input.

A look on an empty queue answers whether that line is the title of an examples block
(`Reader.lookAhead_examples`), goes no further than that line (`Reader.count_lookAhead`), and leaves
no trace: the reader goes on to hand out the same lines under the same numbers, also behind the end
of the input (`Reader.handedOut_lookAhead`).

What a look has found stays true while the lines looked past are taken. So the examples are in sight
in every turn among their tags (`Run.InSight`). Such a turn never meets a line that it does not
expect, nor the end of the input, and the builder has nothing to refuse but a node of tags, which
can always be closed.
-/

namespace FeatureFile

/-! ## What a look finds -/

namespace Matcher

variable {m : Matcher} {t : Token} {l : Line}

/-- Is the line one of those that may stand between tags and what they belong to? -/
def passesOver (m : Matcher) (l : Line) : Bool :=
  [.empty, .comment, .tagLine].any fun kind => (m.readLine kind l).isYes

theorem glance_of_line (hm : m.dialect ∈ Dialect.table) (hl : t.line = some l) :
    (m.lookForExamples [] t).1 =
      if m.passesOver l then .passed
      else if (m.readLine .examplesLine l).isYes then .found
      else .blocked := by
  have hask : ∀ kind, m.ask [] kind t = m.readLine kind l := fun kind => ask_of_line hl rfl
  rw [lookForExamples_fst]
  simp only [hask]
  change (if _ then _ else if m.passesOver l then _ else _) = _
  cases hpassed : m.passesOver l with
  | false => rfl
  | true =>
      -- No title of an examples block looks like a comment or like tags.
      obtain ⟨kind, hkind, hyes⟩ := List.any_eq_true.mp hpassed
      rw [← hask] at hyes
      have hmem : kind ∈ [TokenKind.empty, .comment, .tagLine, .scenarioLine,
          .scenarioOutlineLine] := List.mem_append_left [_, _] hkind
      rw [← hask, ask_examplesLine_eq_false hm hmem hyes]
      rfl

/-- A look at new lines finds examples if their title is the first line that it does not pass. -/
theorem sees_fresh (hm : m.dialect ∈ Dialect.table) (count : Nat) (ls : List Line) :
    Reader.sees (m.lookForExamples []) (Reader.fresh count ls) = true ↔
      ∃ l, (ls.find? fun l => !m.passesOver l) = some l ∧
        (m.readLine .examplesLine l).isYes = true := by
  induction ls generalizing count with
  | nil => simp [Reader.fresh, Reader.sees, Token.isEnd]
  | cons l ls ih =>
      have hline : ({ number := count + 1, line := some l } : Token).isEnd = false := rfl
      rw [Reader.fresh, Reader.sees, hline, glance_of_line hm rfl]
      cases hpassed : m.passesOver l with
      | true => simpa [hpassed] using ih (count + 1)
      | false =>
          cases hexamples : (m.readLine .examplesLine l).isYes <;> simp [hpassed, hexamples]

end Matcher

namespace Reader

variable {r : Reader} {m : Matcher}

theorem lookAhead_examples (hm : m.dialect ∈ Dialect.table) (hq : r.queue = []) :
    (r.lookAhead (m.lookForExamples [])).1 = true ↔
      ∃ l, (r.unread.find? fun l => !m.passesOver l) = some l ∧
        (m.readLine .examplesLine l).isYes = true := by
  rw [lookAhead_fst hq, upcoming, hq]
  exact Matcher.sees_fresh hm r.count r.unread

theorem count_lookUnread (hm : m.dialect ∈ Dialect.table) (count : Nat) (ls : List Line) :
    (lookUnread (m.lookForExamples []) count ls).reader.count =
      count + (ls.takeWhile m.passesOver).length + 1 := by
  induction ls generalizing count with
  | nil => rfl
  | cons l ls ih =>
      obtain ⟨glance, t, hlook⟩ : ∃ glance t,
          m.lookForExamples [] { number := count + 1, line := some l } = (glance, t) := ⟨_, _, rfl⟩
      have hglance := Matcher.glance_of_line (t := { number := count + 1, line := some l }) hm rfl
      rw [hlook] at hglance
      rw [lookUnread, hlook, List.takeWhile_cons]
      cases hpassed : m.passesOver l with
      | true =>
          rw [hpassed] at hglance
          obtain rfl : glance = .passed := hglance
          simp only [ih, if_true, List.length_cons]
          omega
      | false =>
          rw [hpassed] at hglance
          cases glance with
          | found | blocked => rfl
          | passed =>
              cases hexamples : (m.readLine .examplesLine l).isYes <;> simp [hexamples] at hglance

/-- A look goes no further than the first line that it does not pass, or the end of the input. -/
theorem count_lookAhead (hm : m.dialect ∈ Dialect.table) (hq : r.queue = []) :
    (r.lookAhead (m.lookForExamples [])).2.count =
      r.count + (r.unread.takeWhile m.passesOver).length + 1 := by
  rw [lookAhead, hq, lookQueued]
  exact count_lookUnread hm r.count r.unread

/-- The next tokens, as many as asked for. Behind the end of the input there is the end again. -/
def handedOut : Nat → Reader → List Token
  | 0, _ => []
  | n + 1, r => r.next.1 :: handedOut n r.next.2

theorem handedOut_lookUnread {look : Token → Glance × Token}
    (hbare : ∀ t, (look t).2.bare = t.bare) (count n : Nat) (ls : List Line) :
    (handedOut n { (lookUnread look count ls).reader with
      queue := (lookUnread look count ls).seen }).map Token.bare =
      (handedOut n { unread := ls, count := count }).map Token.bare := by
  induction ls generalizing count n with
  | nil =>
      cases n with
      | zero => rfl
      | succ n => exact congrArg (· :: _) (hbare { number := count + 1, line := none })
  | cons l ls ih =>
      cases n with
      | zero => rfl
      | succ n =>
          have hkeep := hbare { number := count + 1, line := some l }
          rw [lookUnread]
          split <;> next t hlook =>
            rw [hlook] at hkeep
            first
              | exact congrArg (· :: _) hkeep
              | exact congrArg₂ List.cons hkeep (ih (count + 1) n)

theorem handedOut_lookAhead {look : Token → Glance × Token}
    (hbare : ∀ t, (look t).2.bare = t.bare) (hq : r.queue = []) (n : Nat) :
    ((r.lookAhead look).2.handedOut n).map Token.bare = (r.handedOut n).map Token.bare := by
  obtain ⟨queue, unread, count⟩ := r
  obtain rfl : queue = [] := hq
  rw [lookAhead, lookQueued]
  simp only [lookUnread_queue, List.nil_append]
  exact handedOut_lookUnread hbare count n unread

end Reader

/-! ## Among the tags of examples -/

namespace State

/-- The tags of examples are entered if examples have been found, and kept by lines that a look
passes. -/
theorem next_examplesTags (s : State) : ∀ a ∈ s.moves, a.next = .examplesTags →
    (s = .examplesTags ∧ a.kind ∈ [TokenKind.empty, .comment, .tagLine]) ∨
      (a.kind = .tagLine ∧ a.guarded = true ∧ s.looksAhead = true) := by
  revert s
  exact State.forall_of_all (by decide)

theorem examplesTags_moves : ∀ a ∈ State.examplesTags.moves,
    (a.kind = .examplesLine ∧ a.next = .block .examples .titled) ∨
      (a.kind ∈ [TokenKind.empty, .comment, .tagLine] ∧ a.next = .examplesTags) := by
  decide

/-- Nothing is closed among the tags of examples but the tags. -/
theorem examplesTags_closes : ∀ a ∈ State.examplesTags.moves,
    a.closes = [] ∨ a.closes = [.tags] := by
  decide

end State

namespace DocumentBuilder

variable {b : DocumentBuilder}

/-- Tags can be closed whatever they are. -/
theorem close_tags {n q : Node} {below : List Node} (hstack : b.stack = n :: q :: below)
    (hn : n.rule = .tags) :
    b.close = ({ b with stack := q.add (.node n.rule n.items) :: below }, none) := by
  have hitem : n.toItem = .ok (.node n.rule n.items) := by rw [Node.toItem, hn]
  rw [close, hstack]
  simp only [hitem]
  rfl

theorem feed_examplesTags {a : Move} {t : Token} {k : TokenKind}
    (h : b.rules = State.examplesTags.path) (ha : a ∈ State.examplesTags.moves)
    (ht : t.kind? = some k) : (Builder.feed (Run.callsOf a t) b).2 = [] := by
  have hrules : b.stack.map Node.rule = State.examplesTags.path.reverse := by
    rw [← h, rules, List.reverse_reverse]
  obtain ⟨n, q, below, hstack, hn, -⟩ := exists_innermost hrules (List.cons_ne_nil _ _)
  rw [Run.callsOf, List.append_assoc]
  rcases State.examplesTags_closes a ha with hcloses | hcloses <;> rw [hcloses]
  · refine feed_opened_read ?_ ht a.opens
    rw [hstack]
    exact List.cons_ne_nil _ _
  · rw [Builder.feed_append, List.map_cons, Builder.feed_cons_fst, Builder.feed_cons_snd]
    change (b.close.2.toList ++ []) ++ (Builder.feed _ b.close.1).2 = []
    rw [close_tags hstack hn]
    exact feed_opened_read (List.cons_ne_nil _ _) ht a.opens

end DocumentBuilder

namespace Run

variable {β ρ : Type} [Builder β ρ] {mode : Mode} {s s' : State} {run : Run β} {o : Step β}

/-- Among the tags of examples the examples are in sight. -/
structure InSight (s : State) (run : Run β) : Prop extends InOrder s run where
  sight : s = .examplesTags →
    Reader.sees (run.matcher.lookForExamples []) run.reader.upcoming = true

/-- The next line is the title of the examples, or one that a look passes, with the examples in
sight behind it. -/
theorem InSight.next (h : InSight .examplesTags run) :
    run.reader.next.1.isEnd = false ∧
      ((run.matcher.ask [] .examplesLine run.reader.next.1).isYes = true ∨
        ((run.matcher.lookForExamples [] run.reader.next.1).1 = .passed ∧
          Reader.sees (run.matcher.lookForExamples []) run.reader.next.2.upcoming = true)) := by
  have hsight := h.sight rfl
  rw [Reader.upcoming_eq] at hsight
  cases hend : run.reader.next.1.isEnd with
  | true =>
      rw [hend, Reader.sees, Token.isEnd_bare, hend] at hsight
      cases hsight
  | false =>
      rw [hend, Reader.sees_cons hend] at hsight
      refine ⟨rfl, ?_⟩
      cases hlook : (run.matcher.lookForExamples [] run.reader.next.1).1 with
      | blocked =>
          rw [hlook] at hsight
          cases hsight
      | passed =>
          rw [hlook] at hsight
          exact .inr ⟨rfl, hsight⟩
      | found => exact .inl (Matcher.lookForExamples_found hlook)

/-- The next line is expected. -/
theorem InSight.accepts (h : InSight .examplesTags run) :
    ∃ a ∈ State.examplesTags.moves, (run.matcher.ask [] a.kind run.reader.next.1).isYes = true := by
  have hexpected : ∀ kind ∈ [TokenKind.examplesLine, .empty, .comment, .tagLine],
      (run.matcher.ask [] kind run.reader.next.1).isYes = true →
      ∃ a ∈ State.examplesTags.moves,
        (run.matcher.ask [] a.kind run.reader.next.1).isYes = true := by
    intro kind hkind hyes
    obtain ⟨a, ha, rfl⟩ := State.examplesTags_expects kind hkind
    exact ⟨a, ha, hyes⟩
  rcases h.next.2 with htitle | ⟨hpassed, _⟩
  · exact hexpected _ (by decide) htitle
  · rcases (Matcher.lookForExamples_passed hpassed).2 with hyes | hyes | hyes <;>
      exact hexpected _ (by decide) hyes

/-- A look that has found examples brings them in sight, and lines that are passed leave them
there. -/
theorem InSight.goes (h : InSight s run) (hmode : mode.hidden = [])
    (hgoes : Goes mode s run o s') : InSight s' o.run := by
  refine ⟨h.toInOrder.goes hmode hgoes, fun hs' => ?_⟩
  cases hgoes with
  | skipped _ _ _ _ hno =>
      subst hs'
      obtain ⟨a, ha, hyes⟩ := h.accepts
      rw [← hmode, hno a ha] at hyes
      cases hyes
  | moved a reading ha hask htoken hfirst hreader hguard =>
      rw [hmode] at hask hreader hguard
      have hmatcher : a.kind ∈ [TokenKind.empty, .comment, .tagLine] →
          o.run.matcher = run.matcher := by
        intro hkind
        rcases Matcher.ask_keeps run.matcher [] (List.mem_cons_of_mem _ hkind)
          run.reader.next.1 with hno | ⟨_, hyes⟩
        · cases hask.symm.trans hno
        · exact (Verdict.yes.inj (hask.symm.trans hyes)).2
      rcases s.next_examplesTags a ha hs' with ⟨rfl, hkind⟩ | ⟨hkind, hguarded, hlook⟩
      · have hyes : (run.matcher.ask [] a.kind run.reader.next.1).isYes = true := by
          rw [hask]
          rfl
        have hmem : a.kind ∈ [TokenKind.empty, .comment, .tagLine, .scenarioLine,
            .scenarioOutlineLine] := List.mem_append_left [_, _] hkind
        rw [if_neg fun hlook => Bool.false_ne_true hlook.2] at hreader
        rw [hmatcher hkind, hreader]
        rcases h.next.2 with htitle | ⟨_, hsight⟩
        · rw [Matcher.ask_examplesLine_eq_false h.dialect hmem hyes] at htitle
          cases htitle
        · exact hsight
      · have hqueue := h.queue_of_looksAhead hlook
        rw [if_pos ⟨hkind, hlook⟩] at hreader
        rw [hmatcher (by rw [hkind]; decide), hreader,
          Reader.upcoming_lookAhead Matcher.lookForExamples_bare hqueue,
          ← Reader.lookAhead_fst hqueue, ← hguard hkind hlook]
        exact hguarded

/-- What a turn among the tags of examples does: without an error it goes on to the examples, by
their title, or stays among the tags, by a line that a look passes. -/
def Turn.Awaits (mode : Mode) (turn : Turn β) : Prop :=
  (turn.outcome mode).run.errors = turn.run.errors ∧ (turn.outcome mode).token.isEnd = false ∧
    (((turn.outcome mode).token.kind? = some .examplesLine ∧
        (turn.outcome mode).next = .ok (.block .examples .titled)) ∨
      ((∃ kind ∈ [TokenKind.empty, .comment, .tagLine],
          (turn.outcome mode).token.kind? = some kind) ∧
        (turn.outcome mode).next = .ok .examplesTags))

theorem InSight.awaits (h : InSight .examplesTags run) (hmode : mode.hidden = [])
    (hquiet : ∀ a ∈ State.examplesTags.moves, ∀ t, t.kind? = some a.kind →
      (Builder.feed (callsOf a t) run.builder).2 = []) :
    Turn.Awaits mode ⟨.examplesTags, run⟩ := by
  have hrefused : (run.decision mode .examplesTags).refused = [] :=
    State.decide_refused_of_ne_start State.noConfusion
  have hdec : State.examplesTags.Decides mode.hidden run.reader.next.1 run.matcher
      run.reader.next.2 (run.decision mode .examplesTags) := State.decide_decides _ _ _ _ _
  rw [hmode] at hdec
  cases hdec with
  | broken a fault ha _ hask =>
      have hkind : a.kind ∈ [TokenKind.examplesLine, .empty, .comment, .tagLine] := by
        rcases State.examplesTags_moves a ha with ⟨hk, _⟩ | ⟨hk, _⟩
        · rw [hk]
          exact List.mem_cons_self
        · exact List.mem_cons_of_mem _ hk
      rcases Matcher.ask_keeps run.matcher [] hkind run.reader.next.1 with hno | ⟨_, hyes⟩
      · cases hask.symm.trans hno
      · cases hask.symm.trans hyes
  | none _ _ _ hno =>
      obtain ⟨a, ha, hyes⟩ := h.accepts
      rw [hno a ha] at hyes
      cases hyes
  | found a reading ha hmove hask htoken =>
      have hkind : (run.decision mode .examplesTags).token.kind? = some a.kind := by
        rw [htoken, ← (Matcher.ask_yes hask).1]
        rfl
      have hadvance := advance_of_found hrefused hmove (hquiet a ha _ hkind)
      rw [Turn.Awaits, Turn.outcome, hadvance]
      refine ⟨rfl, ?_, ?_⟩
      · change (run.decision mode .examplesTags).token.isEnd = false
        rw [htoken, Token.isEnd_withReading]
        exact h.next.1
      · rcases State.examplesTags_moves a ha with ⟨hk, hnext⟩ | ⟨hk, hnext⟩
        · refine .inl ⟨?_, congrArg _ hnext⟩
          rw [← hk]
          exact hkind
        · exact .inr ⟨⟨a.kind, hk, hkind⟩, congrArg _ hnext⟩

/-- A run among the tags of examples comes to the examples. -/
theorem turns_of_awaits {fuel : Nat} (hfuel : run.reader.pending.length < fuel)
    (hawaits : ∀ turn ∈ run.turns mode fuel .examplesTags,
      turn.state = .examplesTags → turn.Awaits mode) :
    ∃ among last next behind, run.turns mode fuel .examplesTags = among ++ last :: next :: behind ∧
      (∀ turn ∈ among ++ [last], turn.state = .examplesTags) ∧
      (last.outcome mode).token.kind? = some .examplesLine ∧
      next.state = .block .examples .titled := by
  induction fuel generalizing run with
  | zero => omega
  | succ fuel ih =>
      have hfirst : Turn.Awaits mode ⟨.examplesTags, run⟩ := by
        refine hawaits _ ?_ rfl
        rw [turns]
        exact List.mem_cons_self
      obtain ⟨_, hend, hnext⟩ := hfirst
      change (run.advance mode .examplesTags).token.isEnd = false at hend
      have hlength : ∀ s', (run.advance mode .examplesTags).next = .ok s' →
          (run.advance mode .examplesTags).run.reader.pending.length + 1 =
            run.reader.pending.length := fun s' hok => (advance_goes hok).pending_length hend
      have hturns : ∀ s', (run.advance mode .examplesTags).next = .ok s' →
          run.turns mode (fuel + 1) .examplesTags =
            ⟨.examplesTags, run⟩ :: (run.advance mode .examplesTags).run.turns mode fuel s' := by
        intro s' hok
        rw [turns, hok]
        simp only [hend, Bool.false_eq_true, if_false]
      rcases hnext with ⟨htitle, hok⟩ | ⟨_, hok⟩
      · have hless := hlength _ hok
        cases fuel with
        | zero => omega
        | succ fuel =>
            refine ⟨[], ⟨.examplesTags, run⟩, ⟨_, _⟩, _, hturns _ hok, ?_, htitle, rfl⟩
            intro turn hturn
            rw [List.mem_singleton.mp hturn]
      · have hless := hlength _ hok
        rw [hturns _ hok] at hawaits ⊢
        obtain ⟨among, last, next, behind, hrest, hamong, htitle, hstate⟩ := ih (by omega)
          fun turn hturn => hawaits turn (List.mem_cons_of_mem _ hturn)
        refine ⟨⟨.examplesTags, run⟩ :: among, last, next, behind, congrArg _ hrest, ?_, htitle,
          hstate⟩
        intro turn hturn
        rcases List.mem_cons.mp hturn with rfl | hturn
        · rfl
        · exact hamong turn hturn

end Run

namespace Parser

variable {β ρ : Type} [Builder β ρ] {parser : Parser β} {matcher : Matcher} {source : Text}

/-- Whenever a parse is among the tags of examples, it comes to the examples, by their title, and
there is no error on the way. -/
def ReachesExamples (parser : Parser β) (matcher : Matcher) (source : Text) : Prop :=
  ∀ before turn behind, parser.turns matcher source = before ++ turn :: behind →
    turn.state = .examplesTags →
    turn.Awaits parser.mode ∧
      ∃ among last next rest, turn :: behind = among ++ last :: next :: rest ∧
        (∀ turn ∈ among ++ [last], turn.state = .examplesTags) ∧
        (last.outcome parser.mode).token.kind? = some .examplesLine ∧
        next.state = .block .examples .titled

theorem inSight_turns (hmatcher : matcher.default ∈ Dialect.table) :
    ∀ turn ∈ parser.turns matcher source, Run.InSight turn.state turn.run :=
  Run.turns_induction (P := Run.InSight) (fun _ _ _ h hgoes _ => h.goes rfl hgoes) _ _ _
    ⟨⟨hmatcher, .inl rfl⟩, State.noConfusion⟩

theorem reachesExamples (hmatcher : matcher.default ∈ Dialect.table)
    (hquiet : ∀ turn ∈ parser.turns matcher source, turn.state = .examplesTags →
      ∀ a ∈ State.examplesTags.moves, ∀ t, t.kind? = some a.kind →
        (Builder.feed (Run.callsOf a t) turn.run.builder).2 = []) :
    parser.ReachesExamples matcher source := by
  have hawaits : ∀ turn ∈ parser.turns matcher source, turn.state = .examplesTags →
      turn.Awaits parser.mode := by
    intro turn hturn hstate
    have hsight := inSight_turns hmatcher turn hturn
    have hfeed := hquiet turn hturn hstate
    obtain ⟨s, run⟩ := turn
    obtain rfl : s = .examplesTags := hstate
    exact hsight.awaits rfl hfeed
  intro before turn behind hturns hstate
  have hmem : ∀ u ∈ turn :: behind, u ∈ parser.turns matcher source := by
    intro u hu
    rw [hturns]
    exact List.mem_append_right _ hu
  refine ⟨hawaits turn (hmem turn List.mem_cons_self) hstate, ?_⟩
  obtain ⟨fuel, hfuel, hrest⟩ := Run.exists_turns_of_append (Nat.lt_succ_self _) hturns
  rw [hstate] at hrest
  rw [← hrest] at hmem ⊢
  exact Run.turns_of_awaits hfuel fun u hu => hawaits u (hmem u hu)

/-- Looking ahead is right and leaves no trace. On an empty queue a look finds examples if and only
if the first line that is not blank, no comment and no tags is their title, and it stops at that
line or at the end of the input. Afterwards the reader hands out the same lines under the same
numbers, and no question that the look asks changes the matcher. Therefore a parse, with either
builder, comes from the tags of examples to the examples and to nothing else, and finds no error
among these tags. -/
theorem lookAhead_leads_to_examples (m : Matcher) (hm : m.dialect ∈ Dialect.table) (r : Reader)
    (hr : r.queue = []) (stopAtFirst : Bool) (matcher : Matcher)
    (hmatcher : matcher.default ∈ Dialect.table) (source : Text) (builder : DocumentBuilder)
    (listing : Listing) :
    ((r.lookAhead (m.lookForExamples [])).1 = true ↔
      ∃ l, (r.unread.find? fun l => !m.passesOver l) = some l ∧
        (m.readLine .examplesLine l).isYes = true) ∧
      (r.lookAhead (m.lookForExamples [])).2.count =
        r.count + (r.unread.takeWhile m.passesOver).length + 1 ∧
      (∀ n, ((r.lookAhead (m.lookForExamples [])).2.handedOut n).map Token.bare =
        (r.handedOut n).map Token.bare) ∧
      (∀ kind ∈ [TokenKind.examplesLine, .empty, .comment, .tagLine], ∀ t,
        m.ask [] kind t = .no ∨ ∃ reading, m.ask [] kind t = .yes reading m) ∧
      State.ofNumber 22 = some .examplesTags ∧
      Parser.ReachesExamples { builder, stopAtFirst } matcher source ∧
      Parser.ReachesExamples { builder := listing, stopAtFirst } matcher source := by
  refine ⟨Reader.lookAhead_examples hm hr, Reader.count_lookAhead hm hr,
    Reader.handedOut_lookAhead Matcher.lookForExamples_bare hr,
    fun kind hkind t => Matcher.ask_keeps m [] hkind t, rfl, ?_, ?_⟩
  · refine reachesExamples hmatcher fun turn hturn hstate a ha t ht => ?_
    have hrules : turn.run.builder.rules = turn.state.path :=
      rules_turns (f := id) (fun _ _ => rfl) rfl turn hturn
    rw [hstate] at hrules
    exact DocumentBuilder.feed_examplesTags hrules ha ht
  · exact reachesExamples hmatcher fun turn _ _ a _ t _ => Listing.feed_snd _ _

/-- A reader behind the first tags of an outline. -/
def behindTags : Reader :=
  { unread := Text.lines "#language:xx\n\n @b #c\n Examples: e\n|a|\n".toList, count := 3 }

/-- An outline with tags before its examples and tags at its end. -/
def twiceTagged : Text :=
  "Feature:\nScenario Outline:\n@a\n#language:xx\n\n @b #c\n Examples: e\n@d\n".toList

theorem lookAhead_leads_to_examples_twiceTagged :
    Dialect.english ∈ Dialect.table ∧ behindTags.queue = [] ∧
      (behindTags.lookAhead ((Matcher.new .commentedSteps .english).lookForExamples [])).1 = true ∧
      (behindTags.lookAhead ((Matcher.new .commentedSteps .english).lookForExamples [])).2.count =
        7 ∧
      ((Parser.turns { builder := ({} : Listing) } (.new .plain .english) twiceTagged).map
        Run.Turn.state).count .examplesTags = 4 ∧
      Parser.ReachesExamples { builder := ({} : DocumentBuilder) } (.new .plain .english)
        twiceTagged ∧
      Parser.ReachesExamples { builder := ({} : Listing) } (.new .plain .english) twiceTagged := by
  have henglish : Dialect.english ∈ Dialect.table := by decide
  obtain ⟨hfound, hcount, _, _, _, hdocument, hlisting⟩ :=
    lookAhead_leads_to_examples (.new .commentedSteps .english) henglish behindTags rfl false
      (.new .plain .english) henglish twiceTagged {} {}
  refine ⟨henglish, rfl, hfound.mpr ⟨" Examples: e\n".toList, ?_, ?_⟩, hcount.trans ?_, ?_,
    hdocument, hlisting⟩ <;> decide +kernel

end Parser

end FeatureFile
