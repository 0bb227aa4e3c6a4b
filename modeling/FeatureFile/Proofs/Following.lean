import FeatureFile.Proofs.Structure
import Mathlib.Data.List.Chain

/-!
# Following a layout

A layout tells how the lines of a source are meant. A parser takes them so if every token can be read
as it stands in the layout and nothing that its state tries before accepts it. Then the run makes the
moves of the trail through the layout, and the document that comes out is the value of the layout
(`Parser.parse_taken`). Where the matcher stays the same all along it is enough that every token is
clear by itself (`Stride.Clear`, `Parser.parse_layout`).

What a look ahead finds needs no assumption: among tags, whatever is taken for something is taken for
the same by someone who looks for examples.
-/

namespace FeatureFile

/-- The token of a stride is read as it stands there, by a matcher that is the same before and behind.
Whatever else the state could take it for is tried later. -/
structure Stride.Clear (m : Matcher) (x : Stride) : Prop where
  ask : ∃ reading, x.token.reading = some reading ∧ m.ask [] x.move.kind x.token = .yes reading m
  others : ∀ a ∈ x.state.moves, m.ask [] a.kind x.token = .no ∨
    ((m.ask [] a.kind x.token).isYes = true ∧
      (a.kind = x.move.kind ∨ x.state.rank x.move.kind < x.state.rank a.kind))

/-- What is clear is taken. -/
theorem Stride.Clear.taken {m : Matcher} {x : Stride} (h : x.Clear m)
    (hmove : x.move ∈ x.state.moves) : x.Taken m m := by
  refine ⟨h.ask, fun kind hrank => ?_⟩
  obtain ⟨c, hc, rfl⟩ := State.exists_move_of_rank_lt hmove hrank
  rcases h.others c hc with hno | ⟨_, hkind | hlater⟩
  · exact hno
  · rw [hkind] at hrank
    omega
  · omega

/-! ## Decisions along a trail -/

namespace State

/-- Behind a guarded move there is another one for tags, without a guard. -/
theorem isChain_guards (s : State) :
    (∀ a ∈ s.trials.getLast?, a.guarded = false) ∧
      s.trials.IsChain fun a b => a.guarded = true → b.guarded = false ∧ b.kind = .tagLine := by
  revert s
  exact forall_of_all (by decide)

/-- What may come next among tags. -/
theorem tags_moves (s : State) : s = .scenarioTags ∨ s = .examplesTags → ∀ a ∈ s.moves,
    a.kind ∈ [.examplesLine, .empty, .comment, .tagLine, .scenarioLine, .scenarioOutlineLine] ∧
      (a.kind = .scenarioLine ∨ a.kind = .scenarioOutlineLine → s.rank .tagLine < s.rank a.kind) ∧
      a.kind ≠ .language ∧ a.kind ≠ .docStringSeparator := by
  revert s
  exact forall_of_all (by decide)

end State

namespace Stride.Taken

variable {m next : Matcher} {x : Stride} {t : Token} {r : Reader}

/-- A stride that can be taken is not refused, nor is its trial broken off. -/
theorem decide_quiet (h : x.Taken m next) (hmove : x.move ∈ x.state.moves)
    (ht : t.line = x.token.line) :
    (x.state.decide [] t m r).refused = [] ∧
      ∀ fault, (x.state.decide [] t m r).move ≠ .error fault := by
  obtain ⟨reading, _, hask⟩ := h.ask
  obtain ⟨before, b, after, htrials, hb, hless, _⟩ := State.exists_split hmove
  have hsame : ∀ kind, m.ask [] kind t = m.ask [] kind x.token := fun kind => Matcher.ask_congr ht
  have hbefore : ∀ c ∈ before, m.ask [] c.kind t = .no := by
    intro c hc
    rw [hsame]
    exact h.before c.kind (hless c hc)
  rw [State.decide, htrials, Trial.run_append _ _ rfl, Trial.run_of_no hbefore]
  simp only [Trial.run_cons, hb, hsame, hask]
  obtain ⟨hlast, hchain⟩ := x.state.isChain_guards
  have hagain : b.guarded = true →
      next.ask [] .tagLine (t.withReading reading) = .yes reading next := by
    intro hguarded
    have htag : b.kind = .tagLine := by
      refine x.state.kind_of_guarded b (State.mem_trials.mp ?_) hguarded
      rw [htrials]
      exact List.mem_append_right _ List.mem_cons_self
    rw [← hb, htag] at hask
    obtain rfl : next = m := (Matcher.ask_yes hask).2.eq TokenKind.noConfusion TokenKind.noConfusion
    rw [Matcher.ask_withReading, hsame, hask]
  rw [htrials] at hlast hchain
  split
  · next hguarded =>
      split
      · exact ⟨rfl, fun _ => by simp⟩
      · cases after with
        | nil =>
            rw [hlast b (by simp)] at hguarded
            cases hguarded
        | cons u after =>
            obtain ⟨hu, huk⟩ := (List.isChain_append_cons_cons.mp hchain).2.1 hguarded
            simp [Trial.run_cons, huk, hu, hagain hguarded]
  · exact ⟨rfl, fun _ => by simp⟩

/-- Someone who looks for examples takes what stands among tags for what it is. -/
theorem glance (h : x.Taken m next) (hmove : x.move ∈ x.state.moves)
    (hs : x.state = .scenarioTags ∨ x.state = .examplesTags) (hm : m.dialect ∈ Dialect.table) :
    (m.lookForExamples [] x.token).1 = x.move.kind.glance ∧ next = m := by
  obtain ⟨hkind, hrank, hlanguage, hseparator⟩ := x.state.tags_moves hs x.move hmove
  obtain ⟨reading, _, hask⟩ := h.ask
  refine ⟨Matcher.glance_of_ask hm hkind ?_ fun htitle => ?_,
    (Matcher.ask_yes hask).2.eq hlanguage hseparator⟩
  · rw [hask]
    rfl
  · rw [h.before _ (hrank htitle)]
    rfl

end Stride.Taken

/-- A look along a trail that goes on from tags finds examples if and only if they are tags of
examples. -/
theorem Trail.sees {s : State} {xs : List Stride} {m last : Matcher} {ts : List Token}
    (h : Trail s xs .finished) (htaken : Taken m xs last) (hm : m.dialect ∈ Dialect.table)
    (hs : s = .scenarioTags ∨ s = .examplesTags)
    (hts : ts.map Token.line = xs.map fun x => x.token.line) :
    Reader.sees (m.lookForExamples []) ts = true ↔ s = .examplesTags := by
  generalize hlast : State.finished = end' at h
  induction h generalizing ts with
  | nil s =>
      subst hlast
      rcases hs with hs | hs <;> cases hs
  | @cons s _ a t xs ha _ _ ih =>
      cases ts with
      | nil => cases hts
      | cons u ts =>
          cases htaken with
          | @cons _ next _ _ _ hfirst hrest' =>
          obtain ⟨hu, hrest⟩ := List.cons.inj hts
          obtain ⟨heof, hglance⟩ := s.glance_of_tags hs a ha
          have hline : u.isEnd = false := by
            obtain ⟨reading, _, hask⟩ := hfirst.ask
            rw [Token.isEnd, hu, Bool.eq_false_iff]
            intro hend
            exact heof ((Matcher.ask_yes_isEnd hask).mp hend)
          obtain ⟨hlook, rfl⟩ := hfirst.glance ha hs hm
          rw [Matcher.lookForExamples_congr t u hu.symm] at hlook
          rw [Reader.sees, hline, hlook]
          -- Only a token that one looks past leaves the question to the rest of the trail.
          rcases hglance with ⟨hk, hnext⟩ | ⟨hk, rfl⟩ | ⟨hk, rfl⟩
          · rw [hk]
            exact hnext ▸ ih hrest' (hnext ▸ hs) hrest hlast
          · rw [hk]
            exact iff_of_true rfl rfl
          · rw [hk]
            exact iff_of_false Bool.false_ne_true State.noConfusion

namespace Run

variable {mode : Mode} {s : State} {m : Matcher} {x : Stride} {xs : List Stride}
  {run : Run (Recorder DocumentBuilder)}

/-- A run that has come to a state without errors and has the tokens of a trail before it. -/
structure Before (m : Matcher) (s : State) (xs : List Stride)
    (run : Run (Recorder DocumentBuilder)) : Prop where
  trail : Trail s xs .finished
  taken : ∃ last, Taken m xs last
  tokens : s ≠ .finished → run.reader.upcoming = xs.map fun x => x.token.bare
  matcher : run.matcher = m
  order : InOrder s run
  errors : run.errors = []

theorem Before.ne_finished (h : Before m s (x :: xs) run) : s ≠ .finished := by
  rintro rfl
  cases h.trail with
  | cons ha _ _ => cases ha

theorem Before.exists_next (h : Before m s (x :: xs) run) :
    x.state = s ∧ x.move ∈ s.moves ∧ ∃ next last, x.Taken m next ∧ Taken next xs last := by
  obtain ⟨last, htaken⟩ := h.taken
  have htrail := h.trail
  cases htrail with
  | cons ha _ _ =>
      cases htaken with
      | @cons _ next _ _ _ hfirst hrest => exact ⟨rfl, ha, next, last, hfirst, hrest⟩

/-- The next token is that of the first stride, and those of the others stand behind it. -/
theorem Before.next_bare (h : Before m s (x :: xs) run) :
    run.reader.next.1.bare = x.token.bare ∧
      (x.token.isEnd = false → run.reader.next.2.upcoming = xs.map fun x => x.token.bare) := by
  have htokens := h.tokens h.ne_finished
  rw [Reader.upcoming_eq, List.map_cons] at htokens
  obtain ⟨hfirst, hrest⟩ := List.cons.inj htokens
  refine ⟨hfirst, fun hend => ?_⟩
  rw [Token.isEnd_eq_of_bare_eq hfirst, hend] at hrest
  exact hrest

/-- Of the moves for a kind of token, a look ahead picks the one of the trail. -/
theorem Before.move_eq (h : Before m s (x :: xs) run) {next last : Matcher}
    (hfirst : x.Taken m next) (hrest : Taken next xs last) {a : Move} (ha : a ∈ s.moves)
    (hkind : a.kind = x.move.kind)
    (hguard : a.kind = .tagLine → s.looksAhead = true →
      a.guarded = (run.reader.next.2.lookAhead (run.matcher.lookForExamples [])).1) :
    a = x.move := by
  obtain ⟨htrail, _, _, hmatcher, horder, _⟩ := id h
  obtain ⟨_, hupcoming⟩ := h.next_bare
  cases htrail with
  | @cons _ _ b t _ hb _ rest =>
      rcases s.eq_of_kind_eq a ha b hb hkind with heq | ⟨htag, hlook⟩
      · exact heq
      · obtain ⟨_, hnext⟩ := s.next_of_looksAhead hlook
        have hbtag : b.kind = .tagLine := hkind ▸ htag
        have hbnext := hnext b hb hbtag
        obtain ⟨reading, _, hyes⟩ := hfirst.ask
        change m.ask [] b.kind t = .yes reading next at hyes
        rw [hbtag] at hyes
        obtain rfl : next = m :=
          (Matcher.ask_yes hyes).2.eq TokenKind.noConfusion TokenKind.noConfusion
        have hend : t.isEnd = false := by
          rw [Bool.eq_false_iff, ne_eq, Matcher.ask_yes_isEnd hyes]
          exact TokenKind.noConfusion
        have hlines : run.reader.next.2.upcoming.map Token.line =
            xs.map fun x => x.token.line := by
          rw [hupcoming hend, List.map_map]
          rfl
        have hsees := rest.sees hrest (hmatcher ▸ horder.dialect)
          (by rw [hbnext]; split <;> simp) hlines
        have hsame : a.guarded = b.guarded := by
          rw [hguard htag hlook, hmatcher,
            Reader.lookAhead_fst (horder.queue_of_looksAhead hlook), Bool.eq_iff_iff, hsees, hbnext]
          cases b.guarded <;> simp
        refine s.eq_of_next_eq a ha b hb hkind ?_
        rw [hnext a ha htag, hbnext, hsame]

/-- The state makes the move of the first stride. -/
theorem Before.decision (h : Before m s (x :: xs) run) (hmode : mode.hidden = [])
    {next last : Matcher} (hfirst : x.Taken m next) (hrest : Taken next xs last) :
    (run.decision mode s).refused = [] ∧ (run.decision mode s).move = .ok (some x.move) ∧
      (run.decision mode s).token = x.token ∧ (run.decision mode s).matcher = next := by
  obtain ⟨hstate, hx, _⟩ := h.exists_next
  obtain ⟨hbare, _⟩ := h.next_bare
  have hline := Token.line_eq_of_bare_eq hbare
  have hsame : ∀ kind, run.matcher.ask [] kind run.reader.next.1 = m.ask [] kind x.token := by
    intro kind
    rw [h.matcher]
    exact Matcher.ask_congr hline
  obtain ⟨reading, hreading, hyes⟩ := hfirst.ask
  obtain ⟨hrefused, hwhole⟩ : (run.decision mode s).refused = [] ∧
      ∀ fault, (run.decision mode s).move ≠ .error fault := by
    rw [Run.decision, hmode, h.matcher, ← hstate]
    exact hfirst.decide_quiet (hstate ▸ hx) hline
  have hdec : s.Decides mode.hidden run.reader.next.1 run.matcher run.reader.next.2
      (run.decision mode s) := s.decide_decides _ _ _ _
  rw [hmode] at hdec
  cases hdec with
  | broken a fault _ hmove => exact absurd hmove (hwhole fault)
  | none _ _ _ hno =>
      have hnone := hno x.move hx
      rw [hsame, hyes] at hnone
      cases hnone
  | found a r ha hmove hask htoken hbefore _ hguard =>
      rw [hsame] at hask
      have hkind : a.kind = x.move.kind := by
        rcases Nat.lt_trichotomy (s.rank a.kind) (s.rank x.move.kind) with hlt | heq | hgt
        · cases hask.symm.trans (hfirst.before a.kind (hstate ▸ hlt))
        · have hmem : a.kind ∈ s.trials.map Move.kind :=
            List.mem_map_of_mem (State.mem_trials.mpr ha)
          exact (List.idxOf_inj hmem).mp heq
        · have hno := hbefore x.move.kind hgt
          rw [hsame, hyes] at hno
          cases hno
      have hmoves := h.move_eq hfirst hrest ha hkind hguard
      subst hmoves
      obtain ⟨rfl, hafter⟩ : reading = r ∧ next = (run.decision mode s).matcher := by
        rw [hyes] at hask
        cases hask
        exact ⟨rfl, rfl⟩
      refine ⟨hrefused, hmove, ?_, hafter.symm⟩
      rw [htoken, Token.withReading_eq_of_bare_eq hbare, Token.withReading, ← hreading]

/-- A turn makes the first stride, and the others are still before the run. -/
theorem Before.advance (h : Before m s (x :: xs) run) (hmode : mode.hidden = [])
    (hfeed : (Builder.feed x.calls run.builder.builder).2 = []) :
    (run.advance mode s).next = .ok x.move.next ∧ (run.advance mode s).token = x.token ∧
      (x.token.isEnd = true ↔ x.move.next = .finished) ∧
      (∃ next, Before next x.move.next xs (run.advance mode s).run) ∧
      (run.advance mode s).run.builder.builder = (Builder.feed x.calls run.builder.builder).1 := by
  obtain ⟨_, _, next, last, hfirst, hrest⟩ := h.exists_next
  obtain ⟨hrefused, hmove, htoken, hmatcher⟩ := h.decision hmode hfirst hrest
  obtain ⟨htrail, _, htokens, _, horder, herrors⟩ := id h
  have hs := h.ne_finished
  cases htrail with
  | @cons _ _ a t _ ha ht rest =>
      have hrecorded := Recorder.feed_eq (callsOf a t) run.builder
      have hadvance := advance_of_found hrefused hmove (by
        rw [htoken, hrecorded]
        exact hfeed)
      have hnext : (run.advance mode s).next = .ok a.next := by rw [hadvance]
      have htaken : (run.advance mode s).token = t := by
        rw [hadvance]
        exact htoken
      have hgoes : Goes mode s run (run.advance mode s) a.next := advance_goes hnext
      have hend : t.isEnd = true ↔ a.next = .finished := by
        obtain ⟨reading, _, hask⟩ := hfirst.ask
        rw [Matcher.ask_yes_isEnd hask, s.next_eq_finished a ha]
      refine ⟨hnext, htaken, hend, ⟨next, rest, ⟨last, hrest⟩, fun hnot => ?_, ?_,
        horder.goes hmode hgoes, ?_⟩, ?_⟩
      · have hupcoming := htokens hs
        rw [horder.upcoming hgoes, htaken, if_neg (mt hend.mp hnot), List.map_cons] at hupcoming
        exact (List.cons.inj hupcoming).2
      · rw [hadvance]
        exact hmatcher
      · rw [hadvance]
        exact herrors
      · rw [hadvance, htoken, hrecorded]
        rfl

/-- A run follows a trail to its end, if the builder refuses nothing on the way. -/
theorem Before.steps (h : Before m s xs run) (hs : s ≠ .finished) (hmode : mode.hidden = [])
    {fuel : Nat} (hfuel : xs.length ≤ fuel) {b : DocumentBuilder}
    (hfeed : Builder.feed (xs.flatMap Stride.calls) run.builder.builder = (b, [])) :
    ∃ run', run.steps mode fuel s = (run', none) ∧ run'.errors = [] ∧ run'.builder.builder = b := by
  induction xs generalizing m s run fuel with
  | nil =>
      cases h.trail
      exact absurd rfl hs
  | cons x xs ih =>
      obtain ⟨fuel, rfl⟩ : ∃ n, fuel = n + 1 := ⟨fuel - 1, by rw [List.length_cons] at hfuel; omega⟩
      rw [List.flatMap_cons, Builder.feed_append] at hfeed
      obtain ⟨hbuilder, hrefusals⟩ := Prod.mk.inj hfeed
      obtain ⟨hfirst, hrest⟩ := List.append_eq_nil_iff.mp hrefusals
      obtain ⟨hnext, htoken, hend, ⟨next, hbefore⟩, hbuilt⟩ := h.advance hmode hfirst
      rw [Run.steps]
      simp only [hnext, htoken]
      split
      · next hlast =>
          have hfinished := hend.mp hlast
          cases xs with
          | nil =>
              refine ⟨_, rfl, hbefore.errors, ?_⟩
              rw [hbuilt]
              exact hbuilder
          | cons y ys => exact absurd hfinished hbefore.ne_finished
      · next hlast =>
          refine ih hbefore (mt hend.mpr hlast) (Nat.le_of_succ_le_succ hfuel) ?_
          rw [hbuilt]
          exact Prod.ext hbuilder hrest

end Run

/-- The document itself is closed without any trouble. -/
theorem DocumentBuilder.close_layout (ps : List Part) {b : DocumentBuilder}
    (hb : b = { stack := [{ rule := .document }, { rule := .root }] }) :
    (Builder.receive (.closed .document) (Builder.feed (Part.callsAll ps) b).1).2 = none := by
  subst hb
  rw [feed_callsAll ps _ (List.cons_ne_nil _ _)]
  rfl

namespace Parser

variable {parser : Parser DocumentBuilder} {matcher : Matcher} {source : Text}

section Taken

variable (hmatcher : matcher.default ∈ Dialect.table) (x : Layout.Document) (hvalid : x.Valid)
  (htokens : x.tokens.map Token.bare = Reader.fresh 0 (Text.lines source)) {xs : List Stride}
  {last : Matcher} (htrail : Trail .start xs .finished)
  (hstrides : xs.map Stride.token = x.tokens) (htaken : Taken matcher.reset xs last)
include hmatcher hvalid htokens htrail hstrides htaken

variable (parser) in
/-- A parse of a source whose lines a layout lays out starts with the whole trail before it, along
which the builder refuses nothing. -/
theorem before_trail :
    Run.Before matcher.reset .start xs (parser.recording.opening matcher source) ∧
      xs.length = (Text.lines source).length + 1 ∧
      xs.flatMap Stride.calls = Part.callsAll x.parts ∧
      (Builder.feed (xs.flatMap Stride.calls)
        (parser.recording.opening matcher source).builder.builder).2 = [] := by
  obtain ⟨ys, htrail', hstrides', hcalls, _⟩ := x.exists_trail
  obtain rfl := htrail.unique htrail' (hstrides.trans hstrides'.symm)
  have hfresh : Reader.fresh 0 (Text.lines source) = xs.map fun y => y.token.bare := by
    rw [← htokens, ← hstrides, List.map_map]
    rfl
  refine ⟨⟨htrail, ⟨last, htaken⟩, fun _ => hfresh, rfl, ⟨hmatcher, .inl rfl⟩, rfl⟩, ?_, hcalls, ?_⟩
  · have hlines := congrArg (List.length ∘ List.map Token.line) hfresh
    simpa [Reader.fresh_line] using hlines.symm
  · rw [hcalls]
    exact (DocumentBuilder.feed_layout x rfl).1.mpr hvalid

/-- A source whose lines a layout lays out, and a matcher takes along the way through the layout, has
the value of the layout as its document. -/
theorem parse_taken : (parser.parse matcher source).outcome = .ok (some x.value) := by
  obtain ⟨hbefore, hlength, hcalls, hfeed⟩ :=
    parser.before_trail hmatcher x hvalid htokens htrail hstrides htaken
  obtain ⟨_, hvalue⟩ := DocumentBuilder.feed_layout x rfl
  have hclosed := DocumentBuilder.close_layout x.parts rfl
  rw [← hcalls] at hvalue hclosed
  obtain ⟨run, hloop, herrors, hbuilder⟩ : ∃ run,
      parser.recording.loop matcher source = (run, none) ∧ run.errors = [] ∧
      run.builder.builder = (Builder.feed (xs.flatMap Stride.calls)
        ({ stack := [{ rule := .document }, { rule := .root }] } : DocumentBuilder)).1 :=
    hbefore.steps State.noConfusion rfl hlength.le (Prod.ext rfl hfeed)
  rw [← hbuilder] at hclosed hvalue
  have hnone : (Builder.receive (.closed .document) run.builder).2 = none := hclosed
  have hresult : Builder.result (Builder.receive (.closed .document) run.builder).1 =
      .ok (some x.value) := hvalue hvalid
  have hcomplete : (parser.recording.start matcher source).complete parser.recording.mode =
      ({ run with builder := (Builder.receive (.closed .document) run.builder).1 }, none) := by
    rw [complete_start (call_opened rfl), hloop]
    simp only [ending]
    rw [Run.call_of_receive hnone]
    simp only [herrors]
    rfl
  rw [← parse_recording, parse_eq, hcomplete]
  simp only [hresult]
  rfl

end Taken

/-- A source of which a layout tells how it is read, line by line, has the value of the layout as its
document. -/
theorem parse_layout (hmatcher : matcher.default ∈ Dialect.table) (x : Layout.Document)
    (hvalid : x.Valid) (htokens : x.tokens.map Token.bare = Reader.fresh 0 (Text.lines source))
    (hclear : ∀ xs, Trail .start xs .finished → xs.map Stride.token = x.tokens →
      xs.filterMap Stride.spot? = x.spots → ∀ y ∈ xs, y.Clear matcher.reset) :
    (parser.parse matcher source).outcome = .ok (some x.value) := by
  obtain ⟨xs, htrail, hstrides, _, hspots⟩ := x.exists_trail
  have hall := hclear xs htrail hstrides hspots
  refine parse_taken hmatcher x hvalid htokens htrail hstrides (Taken.of_forall fun y hy => ?_)
  exact (hall y hy).taken (htrail.mem y hy).1

end Parser

end FeatureFile
