import FeatureFile.Proofs.EvenTables
import FeatureFile.Proofs.LineOrder
import FeatureFile.Proofs.Outcomes
import FeatureFile.Proofs.Samples

/-!
# What a parser accepts

A parser accepts exactly the documents of the grammar. There are two halves.

What is accepted is a document: in a parse without errors every token is handed over by a move, so
the kinds of the tokens lead along the moves from the first state to the last
(`Run.steps_reads`).

Every document is accepted: the source made of the samples of a word is parsed as that word. In
each turn the state has a move for the kind of the next sample, and has to find it among the moves
for all that the sample looks like. It does because it tries the meant kind first, with one
exception, and there it looks ahead and sees whose tags it has before it (`Run.Ready.decision`).
Nothing is refused on the way, since all tables are one cell wide.
-/

namespace FeatureFile

/-! ## What is accepted is a document -/

namespace Run

variable {β ρ : Type} [Builder β ρ] {mode : Mode} {s s' : State} {run : Run (Recorder β)}
  {o : Step (Recorder β)}

/-- A turn without errors makes a move and hands over its token. -/
theorem Goes.exists_move (h : Goes mode s run o s') (hquiet : o.run.errors = []) :
    ∃ a ∈ s.moves, a.next = s' ∧ o.token.kind? = some a.kind ∧
      (o.token.isEnd = true ↔ s' = .finished) ∧
      o.run.builder.tokens = run.builder.tokens ++ [o.token] := by
  have hend := h.isEnd
  cases h with
  | moved a reading ha hask htoken _ _ _ hbuilder =>
      refine ⟨a, ha, rfl, ?_, ?_, ?_⟩
      · rw [htoken, Token.kind?, Token.withReading_reading]
        exact congrArg some (Matcher.ask_yes hask).1
      · rw [hend, Matcher.ask_yes_isEnd hask, s.next_eq_finished a ha]
      · rw [hbuilder, Recorder.tokens_feed]
  | skipped _ _ _ _ _ _ herrors =>
      -- A token that is left out has its error, and errors are kept.
      rw [hquiet] at herrors
      simp at herrors

theorem steps_reads {fuel : Nat} {run' : Run (Recorder β)}
    (hfuel : run.reader.pending.length < fuel) (h : run.steps mode fuel s = (run', none))
    (hnil : run'.errors = []) :
    ∃ w ts, s.reads w = true ∧ ts.map Token.kind? = w.map some ∧
      run'.builder.tokens = run.builder.tokens ++ ts := by
  induction fuel generalizing s run with
  | zero => omega
  | succ fuel ih =>
      obtain ⟨next, hnext, hcases⟩ := steps_inv h
      have hgoes := advance_goes hnext
      have hquiet : (run.advance mode s).run.errors = [] := by
        rcases hcases with ⟨_, rfl, _⟩ | ⟨_, hsteps, _⟩
        · exact hnil
        · have hlater := steps_errors_kept hsteps
          rw [hnil] at hlater
          exact List.prefix_nil.mp hlater
      obtain ⟨a, ha, rfl, hkind, hlast, htokens⟩ := hgoes.exists_move hquiet
      rcases hcases with ⟨hend, rfl, _⟩ | ⟨hend, hsteps, _⟩
      all_goals rw [← hgoes.isEnd] at hend
      · refine ⟨[a.kind], [(run.advance mode s).token], State.reads_cons.mpr ⟨a, ha, rfl, ?_⟩, ?_,
          htokens⟩
        · rw [hlast.mp hend]
          rfl
        · rw [List.map_singleton, hkind, List.map_singleton]
      · have hlength := hgoes.pending_length hend
        obtain ⟨w, ts, hw, hkinds, hrest⟩ := ih (by omega) hsteps
        refine ⟨a.kind :: w, (run.advance mode s).token :: ts,
          State.reads_cons.mpr ⟨a, ha, rfl, hw⟩, ?_, ?_⟩
        · rw [List.map_cons, hkind, hkinds, List.map_cons]
        · rw [hrest, htokens, List.append_assoc, List.singleton_append]

end Run

namespace Parser

variable {β ρ : Type} [Builder β ρ]

theorem document_of_parse_ok {parser : Parser β} {matcher : Matcher} {source : Text} {r : ρ}
    (h : (parser.parse matcher source).outcome = .ok r) :
    ∃ w ∈ Grammar.document, (parser.built matcher source).map Token.kind? = w.map some := by
  rw [← parse_recording] at h
  obtain ⟨last, closed, hloop, hclose, hnil, hbuilder⟩ := loop_of_parse_ok h
  have hlast := Run.errors_of_call hclose hnil
  obtain ⟨w, ts, hw, hkinds, htokens⟩ := Run.steps_reads (Nat.lt_succ_self _) hloop hlast
  have hbuilt : parser.built matcher source = ts := by
    have hclosed := tokens_call_closed parser.recording.mode .document last
    rw [hclose] at hclosed
    rw [built, hbuilder]
    exact hclosed.trans htokens
  refine ⟨w, (State.start.mem_words_iff_reads w).mpr hw, ?_⟩
  rw [hbuilt, hkinds]

end Parser

/-! ## Every document is accepted -/

namespace State

/-- A state that expects a kind tries it before all else that its sample looks like. -/
theorem rank_of_looksLike (s : State) : ∀ a ∈ s.moves, ∀ b ∈ s.moves,
    a.kind.looksLike b.kind = true → b.kind = a.kind ∨ s.rank a.kind < s.rank b.kind := by
  revert s
  exact State.forall_of_all (by decide +kernel)

/-- A state has one move for a kind, apart from tags at which it looks ahead. -/
theorem eq_of_kind_eq (s : State) : ∀ a ∈ s.moves, ∀ b ∈ s.moves, a.kind = b.kind →
    a = b ∨ (a.kind = .tagLine ∧ s.looksAhead = true) := by
  revert s
  exact State.forall_of_all (by decide +kernel)

theorem next_of_looksAhead (s : State) : s.looksAhead = true → s.inDocString = false ∧
    ∀ a ∈ s.moves, a.kind = .tagLine →
      a.next = if a.guarded then .examplesTags else .scenarioTags := by
  revert s
  exact State.forall_of_all (by decide +kernel)

end State

namespace Run

variable {mode : Mode} {s : State} {k : TokenKind} {w : List TokenKind}
  {run : Run (Recorder DocumentBuilder)}

/-- A run that has come to a state without errors and has the samples of a word before it. -/
structure Ready (s : State) (w : List TokenKind) (run : Run (Recorder DocumentBuilder)) :
    Prop where
  word : s.reads w = true
  lines : s ≠ .finished → run.reader.upcoming.map Token.line = w.map TokenKind.line?
  matcher : run.matcher = .english s.inDocString
  order : InOrder s run
  healthy : run.builder.builder.Healthy s
  even : run.builder.builder.Even 1
  errors : run.errors = []

theorem Ready.ne_finished (h : Ready s (k :: w) run) : s ≠ .finished := by
  rintro rfl
  cases h.word

/-- The next token is the sample of the first kind, and the other samples stand behind it. -/
theorem Ready.next_line (h : Ready s (k :: w) run) :
    run.reader.next.1.line = k.line? ∧
      (k ≠ .eof → run.reader.next.2.upcoming.map Token.line = w.map TokenKind.line?) := by
  have hlines := h.lines h.ne_finished
  rw [Reader.upcoming_eq, List.map_cons, List.map_cons] at hlines
  obtain ⟨hfirst, hrest⟩ := List.cons.inj hlines
  change run.reader.next.1.line = k.line? at hfirst
  refine ⟨hfirst, fun hk => ?_⟩
  have hend : run.reader.next.1.isEnd = false := by
    rw [Bool.eq_false_iff, ne_eq, TokenKind.isEnd_of_line hfirst]
    exact hk
  rw [hend] at hrest
  exact hrest

/-- Which move for tags a state makes is decided by the word. -/
theorem Ready.next_eq {a b : Move} (h : Ready s (k :: w) run) (ha : a ∈ s.moves) (hb : b ∈ s.moves)
    (hkind : a.kind = b.kind) (hk : b.kind = k) (hw : b.next.reads w = true)
    (hguard : a.kind = .tagLine → s.looksAhead = true →
      a.guarded = (run.reader.next.2.lookAhead (run.matcher.lookForExamples [])).1) :
    a.next = b.next := by
  rcases s.eq_of_kind_eq a ha b hb hkind with rfl | ⟨htag, hlook⟩
  · rfl
  · obtain ⟨hinside, hnext⟩ := s.next_of_looksAhead hlook
    have hbtag : b.kind = .tagLine := hkind ▸ htag
    have hbnext := hnext b hb hbtag
    have hk' : k ≠ .eof := by
      rw [← hk, hbtag]
      exact TokenKind.noConfusion
    have hsees := State.sees_of_reads (s := b.next)
      (by rw [hbnext]; split <;> simp) hw (h.next_line.2 hk')
    have hsame : a.guarded = b.guarded := by
      rw [hguard htag hlook, h.matcher, hinside,
        Reader.lookAhead_fst (h.order.queue_of_looksAhead hlook), Bool.eq_iff_iff, hsees, hbnext]
      cases b.guarded <;> simp
    rw [hnext a ha htag, hbnext, hsame]

/-- The move `a` as a state decides on it for the kind `k` before the rest `w` of a word. -/
structure Meets (mode : Mode) (s : State) (k : TokenKind) (w : List TokenKind)
    (run : Run (Recorder DocumentBuilder)) (a : Move) : Prop where
  mem : a ∈ s.moves
  kind : a.kind = k
  word : a.next.reads w = true
  refused : (run.decision mode s).refused = []
  move : (run.decision mode s).move = .ok (some a)
  matcher : (run.decision mode s).matcher = .english a.next.inDocString
  serves : a.Serves (run.decision mode s).token
  width : a.kind = .tableRow → (Node.itemsOf (run.decision mode s).token).length = 1

/-- The state makes a move for the kind that the next sample is meant to be, and the rest of the
word goes on from there. -/
theorem Ready.decision (h : Ready s (k :: w) run) (hmode : mode.hidden = []) :
    ∃ a, Meets mode s k w run a := by
  obtain ⟨b, hb, hbk, hw⟩ := State.reads_cons.mp h.word
  have hother := fun kind => Matcher.ask_sample s.inDocString kind h.next_line.1
  have hself := Matcher.ask_sample_affirms s.inDocString h.next_line.1
  rw [← h.matcher] at hother hself
  have hmeant : (run.matcher.ask [] k run.reader.next.1).isYes = true := by
    cases hask : run.matcher.ask [] k run.reader.next.1 with
    | yes reading next => rfl
    | no | unsupported reading | broken fault =>
        rw [hask] at hself
        exact hself.elim
  have hrefused : (run.decision mode s).refused = [] := by
    refine State.decide_refused fun reading hask => ?_
    rw [hmode] at hask
    rcases hother .language with hno | ⟨⟨_, _, hyes⟩, _⟩
    · cases hask.symm.trans hno
    · cases hask.symm.trans hyes
  have hdec : s.Decides mode.hidden run.reader.next.1 run.matcher run.reader.next.2
      (run.decision mode s) := s.decide_decides _ _ _ _
  rw [hmode] at hdec
  cases hdec with
  | broken a fault _ _ hask =>
      rcases hother a.kind with hno | ⟨⟨_, _, hyes⟩, _⟩
      · cases hask.symm.trans hno
      · cases hask.symm.trans hyes
  | none _ _ _ hno =>
      have hnone := hno b hb
      rw [hbk, hmeant] at hnone
      cases hnone
  | found a reading ha hmove hask htoken hfirst hreader hguard =>
      -- Whatever else the sample looks like would have been tried behind the meant kind.
      have hkind : a.kind = b.kind := by
        rcases hother a.kind with hno | ⟨_, hlike⟩
        · cases hask.symm.trans hno
        · rw [← hbk] at hlike hmeant
          refine (s.rank_of_looksLike b hb a ha hlike).resolve_right fun hrank => ?_
          rw [hfirst b.kind hrank] at hmeant
          cases hmeant
      have hnext : a.next = b.next := h.next_eq ha hb hkind hbk hw hguard
      have hinside : run.matcher.separator.isSome = s.inDocString := by
        rw [h.matcher]
        cases s.inDocString <;> rfl
      rw [← hbk, ← hkind, hask] at hself
      refine ⟨a, ha, hkind.trans hbk, by rw [hnext]; exact hw, hrefused, hmove, ?_, ?_, ?_⟩
      · rw [s.inDocString_next a ha]
        exact hself.1
      · rw [htoken]
        exact Matcher.serves_of_ask hinside ha hask hfirst
      · rw [htoken]
        exact hself.2

/-- A turn takes the first sample for what it is meant to be and is ready for the rest. -/
theorem Ready.advance (h : Ready s (k :: w) run) (hmode : mode.hidden = []) :
    ∃ next, (run.advance mode s).next = .ok next ∧ Ready next w (run.advance mode s).run ∧
      (run.advance mode s).token.kind? = some k ∧
      ((run.advance mode s).token.isEnd = true ↔ next = .finished) ∧
      (run.advance mode s).run.builder.tokens =
        run.builder.tokens ++ [(run.advance mode s).token] := by
  obtain ⟨a, ha⟩ := h.decision hmode
  obtain ⟨hhealthy, heven, hfeed⟩ := h.healthy.feed_even h.even ha.mem ha.serves ha.width
  have hrecorded := Recorder.feed_eq (callsOf a (run.decision mode s).token) run.builder
  have hadvance := advance_of_found ha.refused ha.move (by rw [hrecorded]; exact hfeed)
  have hgoes : Goes mode s run (run.advance mode s) a.next :=
    advance_goes (by rw [hadvance])
  have herrors : (run.advance mode s).run.errors = [] := by
    rw [hadvance]
    exact h.errors
  have hend : (run.advance mode s).token.isEnd = true ↔ a.next = .finished := by
    rw [hgoes.isEnd, TokenKind.isEnd_of_line h.next_line.1, s.next_eq_finished a ha.mem, ha.kind]
  refine ⟨a.next, by rw [hadvance],
    ⟨ha.word, ?_, ?_, h.order.goes hmode hgoes, ?_, ?_, herrors⟩, ?_, hend, ?_⟩
  · intro hnext
    have hlines := h.lines h.ne_finished
    rw [h.order.upcoming hgoes, if_neg (mt hend.mp hnext), List.map_cons, List.map_cons] at hlines
    exact (List.cons.inj hlines).2
  · rw [hadvance]
    exact ha.matcher
  · rw [hadvance, hrecorded]
    exact hhealthy
  · rw [hadvance, hrecorded]
    exact heven
  · rw [hadvance, ← ha.kind]
    exact ha.serves.kind
  · rw [hadvance]
    exact Recorder.tokens_feed a _ run.builder

theorem Ready.steps (h : Ready s w run) (hs : s ≠ .finished) (hmode : mode.hidden = [])
    {fuel : Nat} (hfuel : w.length ≤ fuel) :
    ∃ run' ts, run.steps mode fuel s = (run', none) ∧ Ready .finished [] run' ∧
      run'.builder.tokens = run.builder.tokens ++ ts ∧ ts.map Token.kind? = w.map some := by
  -- The word is what gets shorter; the fuel only has to last as long.
  induction w generalizing s run fuel with
  | nil => exact absurd (decide_eq_true_eq.mp h.word) hs
  | cons k w ih =>
      obtain ⟨fuel, rfl⟩ : ∃ n, fuel = n + 1 := ⟨fuel - 1, by rw [List.length_cons] at hfuel; omega⟩
      obtain ⟨next, hnext, hready, hkind, hend, htokens⟩ := h.advance hmode
      rw [Run.steps]
      simp only [hnext]
      generalize run.advance mode s = o at *
      split
      · rename_i hlast
        obtain rfl := hend.mp hlast
        cases w with
        | nil =>
            refine ⟨o.run, [o.token], rfl, hready, htokens, ?_⟩
            rw [List.map_singleton, hkind, List.map_singleton]
        | cons k w => exact absurd rfl hready.ne_finished
      · rename_i hlast
        obtain ⟨run', ts, hsteps, hdone, hrest, hkinds⟩ :=
          ih hready (mt hend.mpr hlast) (Nat.le_of_succ_le_succ hfuel)
        refine ⟨run', o.token :: ts, hsteps, hdone, ?_, ?_⟩
        · rw [hrest, htokens, List.append_assoc, List.singleton_append]
        · rw [List.map_cons, hkind, hkinds, List.map_cons]

end Run

namespace Parser

variable {w : List TokenKind}

theorem ready_opening (parser : Parser DocumentBuilder) (hw : w ∈ Grammar.document) :
    Run.Ready .start w
      (parser.recording.opening (.new .plain .english) (Grammar.source w)) := by
  have hreads : State.start.reads w = true := (State.start.mem_words_iff_reads w).mp hw
  have henglish : Dialect.english ∈ Dialect.table := by decide
  refine ⟨hreads, fun hs => ?_, rfl, ⟨henglish, .inl rfl⟩,
    (DocumentBuilder.sturdy.opened parser.builder).2, ?_, rfl⟩
  · rw [State.map_line_of_reads hs hreads, ← Grammar.lines_source]
    exact Reader.fresh_line 0 _
  · intro n hn t ht
    rcases List.mem_cons.mp hn with rfl | hn
    · cases ht
    · rw [List.mem_singleton.mp hn] at ht
      cases ht

theorem parse_source (parser : Parser DocumentBuilder) (hw : w ∈ Grammar.document) :
    ∃ d, (parser.parse (.new .plain .english) (Grammar.source w)).outcome = .ok (some d) ∧
      (parser.built (.new .plain .english) (Grammar.source w)).map Token.kind? = w.map some := by
  have hready := parser.ready_opening hw
  have hlength : w.length = (Text.lines (Grammar.source w)).length + 1 := by
    have hlines := State.map_line_of_reads State.noConfusion hready.word
    rw [Grammar.lines_source, ← List.length_map TokenKind.line?, hlines, List.length_append,
      List.length_map, List.length_singleton]
  obtain ⟨run, ts, hloop, hdone, htokens, hkinds⟩ : ∃ run ts,
      parser.recording.loop (.new .plain .english) (Grammar.source w) = (run, none) ∧
      Run.Ready .finished [] run ∧ run.builder.tokens = [] ++ ts ∧
      ts.map Token.kind? = w.map some := hready.steps State.noConfusion rfl hlength.le
  obtain ⟨hnone, d, hd⟩ := hdone.healthy.close_finished
  have hresult : Builder.result (Builder.receive (.closed .document) run.builder).1 =
      .ok (some d) := hd
  have hcomplete : (parser.recording.start (.new .plain .english) (Grammar.source w)).complete
      parser.recording.mode =
      ({ run with builder := (Builder.receive (.closed .document) run.builder).1 }, none) := by
    rw [complete_start (call_opened rfl), hloop]
    simp only [ending]
    rw [Run.call_of_receive hnone]
    simp only [hdone.errors]
    rfl
  refine ⟨d, ?_, ?_⟩
  · rw [← parse_recording, parse_eq, hcomplete]
    simp only [hresult]
    rfl
  · rw [built_eq rfl, hloop, htokens]
    exact hkinds

/-- A parser accepts exactly its grammar: whatever builder it has and whatever matcher it is given,
the tokens that it hands over for a source it accepts are a document, and for every document there
is a source that it accepts as that document. -/
theorem accepts_exactly_the_grammar :
    (∀ (β ρ : Type) [Builder β ρ] (parser : Parser β) (matcher : Matcher) (source : Text) (r : ρ),
      (parser.parse matcher source).outcome = .ok r →
      ∃ w ∈ Grammar.document, (parser.built matcher source).map Token.kind? = w.map some) ∧
    ∀ w ∈ Grammar.document, ∃ source, ∀ parser : Parser DocumentBuilder, ∃ d,
      (parser.parse (.new .plain .english) source).outcome = .ok (some d) ∧
      (parser.built (.new .plain .english) source).map Token.kind? = w.map some :=
  ⟨fun _ _ _ _ _ _ _ h => document_of_parse_ok h,
    fun w hw => ⟨Grammar.source w, fun parser => parser.parse_source hw⟩⟩

/-- A document with tags of both sorts behind a step. -/
def taggedOutline : List TokenKind :=
  [.language, .comment, .tagLine, .featureLine, .empty, .other, .scenarioOutlineLine, .stepLine,
    .docStringSeparator, .other, .docStringSeparator, .tagLine, .comment, .examplesLine, .tableRow,
    .tableRow, .tagLine, .empty, .scenarioLine, .stepLine, .tableRow, .eof]

theorem accepts_exactly_the_grammar_taggedOutline :
    taggedOutline ∈ Grammar.document ∧
      ∃ source d,
        (Parser.parse { builder := ({} : DocumentBuilder) } (.new .plain .english) source).outcome =
          .ok (some d) ∧
        (Parser.built { builder := ({} : DocumentBuilder) } (.new .plain .english) source).map
          Token.kind? = taggedOutline.map some ∧
        ∃ w ∈ Grammar.document,
          (Parser.built { builder := ({} : DocumentBuilder) } (.new .plain .english) source).map
            Token.kind? = w.map some := by
  have hword : taggedOutline ∈ Grammar.document := by decide
  obtain ⟨source, haccepted⟩ := accepts_exactly_the_grammar.2 taggedOutline hword
  obtain ⟨d, hd, hkinds⟩ := haccepted { builder := {} }
  exact ⟨hword, source, d, hd, hkinds, accepts_exactly_the_grammar.1 _ _ _ _ _ _ hd⟩

end Parser

end FeatureFile
