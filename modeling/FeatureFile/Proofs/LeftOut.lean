import FeatureFile.Proofs.Acceptance
import FeatureFile.Proofs.Mirror
import FeatureFile.Proofs.Titles

/-!
# Lines that are left out

A run that meets a line it does not expect reports the line and goes on behind it, in the state it
was in. Nothing of the line is left: a run without the lines that are left out takes the same course,
but for the numbers of lines (`Run.steps_mirrored`).

Line by line this is `Run.advance_mirrored`. What remains is the look ahead, which reaches beyond the
next line and may meet lines that will be left out. It finds the same without them. If it finds
examples, the parser goes on among their tags, where everything that was looked past is expected, so
that no line on the way is left out. If it does not, the parser goes on among the tags of a scenario,
and every line that is expected there is looked past or blocks the view. The second half needs that
no title of a scenario is also one of examples, in any language.
-/

namespace FeatureFile

variable {σ : Int → Int}

/-! ## The end of the input -/

theorem Matcher.lookForExamples_end {m : Matcher} {hidden : List TokenKind} {t : Token}
    (h : t.isEnd = true) : m.lookForExamples hidden t = (.blocked, t) := by
  have hno : ∀ kind, kind ≠ .eof → m.ask hidden kind t = .no := by
    intro kind hkind
    have hne : (kind != .eof) = true := bne_iff_ne.mpr hkind
    rw [ask, h, hne, Bool.true_and, Bool.or_true, if_pos rfl]
  simp [lookForExamples, firstReading, hno]

/-- The end of the input, if it has been looked at, has not been read as anything. -/
def Reader.PlainEnd (r : Reader) : Prop := ∀ t ∈ r.queue, t.isEnd = true → t.reading = none

namespace Reader

theorem PlainEnd.next {r : Reader} (h : r.PlainEnd) :
    (r.next.1.isEnd = true → r.next.1.reading = none) ∧ r.next.2.PlainEnd := by
  obtain ⟨queue, unread, count⟩ := r
  cases queue with
  | cons t ts => exact ⟨h t List.mem_cons_self, fun u hu => h u (List.mem_cons_of_mem _ hu)⟩
  | nil =>
      refine ⟨?_, ?_⟩
      · intro _
        cases unread <;> rfl
      · rw [PlainEnd, queue_next rfl]
        exact fun t ht => nomatch ht

theorem PlainEnd.lookAhead {r : Reader} {m : Matcher} {hidden : List TokenKind}
    (hq : r.queue = []) : (r.lookAhead (m.lookForExamples hidden)).2.PlainEnd := by
  intro t ht hend
  obtain ⟨u, hu, rfl⟩ := mem_lookAhead_queue hq ht
  rw [Token.isEnd_eq_of_bare_eq (Matcher.lookForExamples_bare u)] at hend
  rw [Matcher.lookForExamples_end hend]
  exact hu

end Reader

namespace Run

variable {β ρ : Type} [Builder β ρ] {mode : Mode} {s s' : State} {run run' : Run β} {o : Step β}

/-- What is known of a run on the way, whatever its source. -/
structure OnTrack (s : State) (run : Run β) : Prop extends InOrder s run where
  plainEnd : run.reader.PlainEnd

theorem OnTrack.goes (h : OnTrack s run) (hmode : mode.hidden = [])
    (hgoes : Goes mode s run o s') : OnTrack s' o.run := by
  refine ⟨h.toInOrder.goes hmode hgoes, ?_⟩
  rcases h.toInOrder.reader hgoes with hreader | ⟨_, _, _, hqueue, hreader⟩
  · rw [hreader]
    exact h.plainEnd.next.2
  · rw [hreader]
    exact Reader.PlainEnd.lookAhead hqueue

/-! ## Lines that are left out -/

/-- The token that a turn is about. -/
def Turn.token (turn : Turn β) : Token := turn.run.reader.next.1

/-- The turn is about a line that the state does not expect. -/
def Turn.leavesOut (turn : Turn β) : Bool :=
  !turn.token.isEnd &&
    !turn.state.moves.any fun a => (turn.run.matcher.ask [] a.kind turn.token).isYes

theorem ParseError.leftOut?_unexpected (t : Token) (kinds : List TokenKind) :
    (ParseError.unexpected t kinds).leftOut? = if t.isEnd then none else some t.number := by
  cases hline : t.line with
  | none => simp [ParseError.unexpected, Token.isEnd, hline, ParseError.leftOut?,
      ParseError.unexpectedEnd, ParseError.placed]
  | some l =>
      simp only [ParseError.unexpected, ParseError.unexpectedLine, ParseError.unexpectedPlace,
        Token.isEnd, hline, ParseError.leftOut?, ParseError.placed, Option.isNone_some,
        Bool.false_eq_true, if_false]
      split <;> rfl

theorem headerErrors_leftOut (run : Run β) :
    (run.headerErrors mode s).filterMap ParseError.leftOut? = [] := by
  rw [headerErrors, refusals, List.map_map, List.filterMap_map]
  simp [Function.comp_def, ParseError.unsupportedLanguage, ParseError.leftOut?]

theorem feed_leftOut (hmild : Builder.Mild β) (cs : List Call) (b : β) :
    ((Builder.feed cs b).2.flatMap Refusal.toErrors).filterMap ParseError.leftOut? = [] := by
  rw [List.filterMap_eq_nil_iff]
  intro e he
  have hnone := hmild.feed cs b
  rw [List.filter_eq_nil_iff] at hnone
  exact ParseError.leftOut?_of_isUnexpected (Bool.eq_false_iff.mpr (hnone e he))

/-- A turn reports its line as left out if and only if the state does not expect it. -/
theorem Goes.leftOut (hmild : Builder.Mild β) (hmode : mode.hidden = [])
    (hgoes : Goes mode s run o s') :
    o.run.errors.filterMap ParseError.leftOut? =
      run.errors.filterMap ParseError.leftOut? ++
        if (Turn.mk s run).leavesOut then [run.reader.next.1.number] else [] := by
  cases hgoes with
  | moved a reading ha hask htoken hfirst hreader hguard hbuilder herrors =>
      have hexpected : (Turn.mk s run).leavesOut = false := by
        rw [hmode] at hask
        have hany : (s.moves.any fun a => (run.matcher.ask [] a.kind run.reader.next.1).isYes) =
            true := List.any_eq_true.mpr ⟨a, ha, by rw [hask]; rfl⟩
        rw [Turn.leavesOut, Turn.token, hany, Bool.not_true, Bool.and_false]
      rw [herrors, List.filterMap_append, List.filterMap_append, headerErrors_leftOut,
        feed_leftOut hmild, hexpected]
      rfl
  | skipped hs hbare hmatcher hreader hno hbuilder herrors =>
      rw [hmode] at hno
      have hany : (s.moves.any fun a => (run.matcher.ask [] a.kind run.reader.next.1).isYes) =
          false := List.any_eq_false.mpr fun a ha => Bool.eq_false_iff.mp (hno a ha)
      have hnumber : o.token.number = run.reader.next.1.number := by
        rw [← Token.bare_number, hbare, Token.bare_number]
      rw [herrors, List.filterMap_append, List.filterMap_append, headerErrors_leftOut,
        List.nil_append, List.filterMap_cons, List.filterMap_nil, ParseError.leftOut?_unexpected,
        Token.isEnd_eq_of_bare_eq hbare, Turn.leavesOut, Turn.token, hany, hnumber]
      cases run.reader.next.1.isEnd <;> rfl

/-- What comes next is the token of the turn and what comes behind it. -/
theorem InOrder.upcoming_cons (h : InOrder s run) (hgoes : Goes mode s run o s') :
    run.reader.upcoming = run.reader.next.1.bare ::
      if run.reader.next.1.isEnd then [] else o.run.reader.upcoming := by
  rw [h.upcoming hgoes, hgoes.bare, hgoes.isEnd]

/-- A run to the end takes what comes next, and reports the lines that are not expected. -/
theorem steps_leftOut (hmild : Builder.Mild β) (hmode : mode.hidden = []) {fuel : Nat}
    (hinv : InOrder s run) (hfuel : run.reader.pending.length < fuel)
    (h : run.steps mode fuel s = (run', none)) :
    ((run.turns mode fuel s).map fun turn => turn.token.bare) = run.reader.upcoming ∧
      run'.errors.filterMap ParseError.leftOut? =
        run.errors.filterMap ParseError.leftOut? ++
          ((run.turns mode fuel s).filter Turn.leavesOut).map fun turn => turn.token.number := by
  induction fuel generalizing s run with
  | zero => omega
  | succ fuel ih =>
      obtain ⟨next, hnext, ⟨hend, rfl, hturns⟩ | ⟨hend, hsteps, hturns⟩⟩ := steps_inv h
      all_goals
        have hgoes := advance_goes hnext
        have hturn := hgoes.leftOut hmild hmode
        rw [hturns, hinv.upcoming_cons hgoes, hend]
      · refine ⟨rfl, ?_⟩
        rw [hturn, List.filter_cons]
        split <;> rfl
      · have hlength := hgoes.pending_length (by rw [hgoes.isEnd, hend])
        obtain ⟨htaken, hrest⟩ := ih (hinv.goes hmode hgoes) (by omega) hsteps
        refine ⟨congrArg (_ :: ·) htaken, ?_⟩
        rw [hrest, hturn, List.append_assoc, List.filter_cons]
        split <;> rfl

end Run

/-- The tokens whose lines remain when those with the given numbers are taken away. -/
def Token.remaining (gone : List Int) (ts : List Token) : List Token :=
  ts.filter fun t => t.number ∉ gone

theorem Token.remaining_cons (gone : List Int) (t : Token) (ts : List Token) :
    remaining gone (t :: ts) =
      if t.number ∈ gone then remaining gone ts else t :: remaining gone ts := by
  rw [remaining, List.filter_cons]
  by_cases h : t.number ∈ gone <;> simp [h, remaining]

theorem Reader.sees_renumber {m : Matcher} {hidden : List TokenKind} (ts : List Token) :
    sees (m.lookForExamples hidden) (ts.map (Token.renumber σ)) =
      sees (m.lookForExamples hidden) ts := by
  induction ts with
  | nil => rfl
  | cons t ts ih =>
      have hend : (t.renumber σ).isEnd = t.isEnd := rfl
      rw [List.map_cons, sees, sees, ih, hend,
        Matcher.lookForExamples_congr (t.renumber σ) t rfl]

theorem Reader.sees_cons {m : Matcher} {t : Token} {ts : List Token} (h : t.isEnd = false) :
    sees (m.lookForExamples []) (t.bare :: ts) =
      match (m.lookForExamples [] t).1 with
      | .found => true
      | .blocked => false
      | .passed => sees (m.lookForExamples []) ts := by
  rw [sees, Token.isEnd_bare, h, Matcher.lookForExamples_congr t.bare t rfl]
  rfl

/-- Everything that one looks past, and what one looks for, is expected among the tags of
examples. -/
theorem State.examplesTags_expects : ∀ kind ∈ [TokenKind.examplesLine, .empty, .comment, .tagLine],
    ∃ a ∈ State.examplesTags.moves, a.kind = kind := by
  decide

/-- Whatever is expected among tags, someone who looks for examples takes it for what it is. -/
theorem Matcher.glance_of_ask {m : Matcher} {t : Token} {kind : TokenKind}
    (hm : m.dialect ∈ Dialect.table)
    (hkind : kind ∈ [.examplesLine, .empty, .comment, .tagLine, .scenarioLine,
      .scenarioOutlineLine])
    (hyes : (m.ask [] kind t).isYes = true)
    (htag : kind = .scenarioLine ∨ kind = .scenarioOutlineLine →
      (m.ask [] .tagLine t).isYes = false) :
    (m.lookForExamples [] t).1 = kind.glance := by
  rw [lookForExamples_fst]
  by_cases hexamples : kind = .examplesLine
  · rw [hexamples] at hyes ⊢
    rw [hyes]
    rfl
  · have hrest := (List.mem_cons.mp hkind).resolve_left hexamples
    rw [ask_examplesLine_eq_false hm hrest hyes]
    by_cases htitle : kind = .scenarioLine ∨ kind = .scenarioOutlineLine
    · have hother : ¬((m.ask [] .empty t).isYes = true ∨ (m.ask [] .comment t).isYes = true) := by
        intro hblank
        rw [ask_scenario_title hm htitle hblank] at hyes
        cases hyes
      rw [not_or, Bool.not_eq_true, Bool.not_eq_true] at hother
      have hblocked : kind.glance = .blocked := by rcases htitle with h | h <;> rw [h] <;> rfl
      simp [hblocked, htag htitle, hother.1, hother.2]
    · have hpassed : kind ∈ [TokenKind.empty, .comment, .tagLine] ∧ kind.glance = .passed := by
        revert hrest htitle
        cases kind <;> decide
      have hany : ([TokenKind.empty, .comment, .tagLine].any fun k => (m.ask [] k t).isYes) = true :=
        List.any_eq_true.mpr ⟨kind, hpassed.1, hyes⟩
      rw [hany, hpassed.2]
      rfl

theorem State.scenarioTags_moves : ∀ a ∈ State.scenarioTags.moves,
    (a.kind ∈ [TokenKind.empty, .comment, .tagLine] ∧ a.next = .scenarioTags) ∨
      ((a.kind = .scenarioLine ∨ a.kind = .scenarioOutlineLine) ∧
        State.scenarioTags.rank .tagLine < State.scenarioTags.rank a.kind) := by
  decide

namespace Run

variable {β ρ : Type} [Builder β ρ] {mode : Mode} {s s' : State} {run run' : Run β} {o : Step β}
  {gone : List Int} {fuel : Nat}

theorem Turn.leavesOut_eq_false {turn : Turn β} {kind : TokenKind}
    (hkind : ∃ a ∈ turn.state.moves, a.kind = kind)
    (h : (turn.run.matcher.ask [] kind turn.token).isYes = true) : turn.leavesOut = false := by
  obtain ⟨a, ha, rfl⟩ := hkind
  have hany : (turn.state.moves.any fun a => (turn.run.matcher.ask [] a.kind turn.token).isYes) =
      true := List.any_eq_true.mpr ⟨a, ha, h⟩
  rw [leavesOut, hany, Bool.not_true, Bool.and_false]

/-! ## Looking ahead past lines that are left out -/

/-- The lines with these numbers are those that the turns leave out. -/
def LeavesOut (gone : List Int) (turns : List (Turn β)) : Prop :=
  ∀ turn ∈ turns, turn.token.number ∈ gone ↔ turn.leavesOut = true

/-- Among the tags of examples nothing is left out before the examples come. -/
theorem sees_remaining_of_examplesTags (hmode : mode.hidden = [])
    (hinv : InOrder .examplesTags run) (hfuel : run.reader.pending.length < fuel)
    (hgone : LeavesOut gone (run.turns mode fuel .examplesTags))
    (h : run.steps mode fuel .examplesTags = (run', none))
    (hsees : Reader.sees (run.matcher.lookForExamples []) run.reader.upcoming = true) :
    Reader.sees (run.matcher.lookForExamples [])
      (Token.remaining gone run.reader.upcoming) = true := by
  induction fuel generalizing run with
  | zero => omega
  | succ fuel ih =>
      obtain ⟨next, hnext, ⟨hend, _⟩ | ⟨hend, hsteps, hturns⟩⟩ := steps_inv h
      all_goals
        have hgoes := advance_goes hnext
        rw [hinv.upcoming_cons hgoes, hend] at hsees ⊢
      · rw [Reader.sees, Token.isEnd_bare, hend] at hsees
        cases hsees
      · rw [hturns] at hgone
        have hkept : ∀ kind ∈ [TokenKind.examplesLine, .empty, .comment, .tagLine],
            (run.matcher.ask [] kind run.reader.next.1).isYes = true →
            run.reader.next.1.bare.number ∉ gone := by
          intro kind hkind hask hmem
          have hout := (hgone _ List.mem_cons_self).mp hmem
          rw [Turn.leavesOut_eq_false (State.examplesTags_expects kind hkind) hask] at hout
          cases hout
        simp only [Bool.false_eq_true, if_false] at hsees ⊢
        rw [Reader.sees_cons hend] at hsees
        rw [Token.remaining_cons]
        cases hlook : (run.matcher.lookForExamples [] run.reader.next.1).1 with
        | blocked =>
            rw [hlook] at hsees
            cases hsees
        | found =>
            rw [if_neg (hkept _ (by decide) (Matcher.lookForExamples_found hlook)),
              Reader.sees_cons hend, hlook]
        | passed =>
            rw [hlook] at hsees
            obtain ⟨_, hother⟩ := Matcher.lookForExamples_passed hlook
            have hstay : run.reader.next.1.bare.number ∉ gone := by
              rcases hother with hask | hask | hask <;> exact hkept _ (by decide) hask
            obtain ⟨rfl, hmatcher⟩ := hgoes.stays hmode hinv.dialect rfl hlook
            have hlength := hgoes.pending_length (by rw [hgoes.isEnd, hend])
            have hrest := ih (hinv.goes hmode hgoes) (by omega)
              (fun turn hturn => hgone turn (List.mem_cons_of_mem _ hturn)) hsteps
            rw [hmatcher] at hrest
            rw [if_neg hstay, Reader.sees_cons hend, hlook]
            exact hrest hsees

/-- A line that is expected among the tags of a scenario is looked past or blocks the view. -/
theorem Goes.glance_of_scenarioTags (hgoes : Goes mode .scenarioTags run o s')
    (hmode : mode.hidden = []) (hdialect : run.matcher.dialect ∈ Dialect.table)
    (hexpected : (Turn.mk .scenarioTags run).leavesOut = false)
    (hend : run.reader.next.1.isEnd = false) :
    ((run.matcher.lookForExamples [] run.reader.next.1).1 = .passed ∧ s' = .scenarioTags ∧
      o.run.matcher = run.matcher) ∨
      (run.matcher.lookForExamples [] run.reader.next.1).1 = .blocked := by
  cases hgoes with
  | skipped _ _ _ _ hno =>
      rw [hmode] at hno
      have hany : (State.scenarioTags.moves.any fun a =>
          (run.matcher.ask [] a.kind run.reader.next.1).isYes) = false :=
        List.any_eq_false.mpr fun a ha => Bool.eq_false_iff.mp (hno a ha)
      rw [Turn.leavesOut, Turn.token, hend, hany] at hexpected
      cases hexpected
  | moved a reading ha hask htoken hfirst =>
      rw [hmode] at hask hfirst
      have hyes : (run.matcher.ask [] a.kind run.reader.next.1).isYes = true := by
        rw [hask]
        rfl
      rcases State.scenarioTags_moves a ha with ⟨hkind, hnext⟩ | ⟨hkind, hrank⟩
      · have hmild : a.kind ∈ [TokenKind.examplesLine, .empty, .comment, .tagLine, .scenarioLine,
            .scenarioOutlineLine] ∧ a.kind.glance = .passed ∧
            ¬(a.kind = .scenarioLine ∨ a.kind = .scenarioOutlineLine) ∧ a.kind ≠ .language ∧
            a.kind ≠ .docStringSeparator := by
          revert hkind
          generalize a.kind = kind
          cases kind <;> decide
        obtain ⟨hmem, hglance, htitle, hlanguage, hseparator⟩ := hmild
        refine .inl ⟨?_, hnext, (Matcher.ask_yes hask).2.eq hlanguage hseparator⟩
        rw [Matcher.glance_of_ask hdialect hmem hyes fun h => absurd h htitle, hglance]
      · refine .inr ?_
        rw [Matcher.glance_of_ask hdialect _ hyes fun _ => hfirst .tagLine hrank]
        · rcases hkind with h | h <;> rw [h] <;> rfl
        · rcases hkind with h | h <;> rw [h] <;> decide

/-- Among the tags of a scenario no examples are found, however many lines are left out. -/
theorem sees_remaining_of_scenarioTags (hmode : mode.hidden = [])
    (hinv : InOrder .scenarioTags run) (hfuel : run.reader.pending.length < fuel)
    (hgone : LeavesOut gone (run.turns mode fuel .scenarioTags))
    (h : run.steps mode fuel .scenarioTags = (run', none)) :
    Reader.sees (run.matcher.lookForExamples [])
      (Token.remaining gone run.reader.upcoming) = false := by
  induction fuel generalizing run with
  | zero => omega
  | succ fuel ih =>
      obtain ⟨next, hnext, ⟨hend, _⟩ | ⟨hend, hsteps, hturns⟩⟩ := steps_inv h
      all_goals
        have hgoes := advance_goes hnext
        rw [hinv.upcoming_cons hgoes, hend, Token.remaining_cons]
      · split
        · rfl
        · rw [Reader.sees, Token.isEnd_bare, hend]
          rfl
      · rw [hturns] at hgone
        simp only [Bool.false_eq_true, if_false]
        have hlength := hgoes.pending_length (by rw [hgoes.isEnd, hend])
        have hrest : next = .scenarioTags → (run.advance mode .scenarioTags).run.matcher =
            run.matcher → Reader.sees (run.matcher.lookForExamples []) (Token.remaining gone
              (run.advance mode .scenarioTags).run.reader.upcoming) = false := by
          rintro rfl hmatcher
          have hih := ih (hinv.goes hmode hgoes) (by omega)
            (fun turn hturn => hgone turn (List.mem_cons_of_mem _ hturn)) hsteps
          rw [hmatcher] at hih
          exact hih
        split
        · next hmem =>
            have hout := (hgone _ List.mem_cons_self).mp hmem
            cases hgoes with
            | skipped _ _ hmatcher => exact hrest rfl hmatcher
            | moved a reading ha hask =>
                rw [hmode] at hask
                rw [Turn.leavesOut_eq_false ⟨a, ha, rfl⟩ (by rw [Turn.token, hask]; rfl)] at hout
                cases hout
        · next hmem =>
            have hexpected : (Turn.mk .scenarioTags run).leavesOut = false := by
              rw [Bool.eq_false_iff]
              exact fun hout => hmem ((hgone _ List.mem_cons_self).mpr hout)
            rw [Reader.sees_cons hend]
            rcases hgoes.glance_of_scenarioTags hmode hinv.dialect hexpected hend with
              ⟨hlook, hs, hmatcher⟩ | hlook
            · rw [hlook]
              exact hrest hs hmatcher
            · rw [hlook]

end Run

/-! ## One turn, with the line left out or kept -/

theorem Matcher.ask_comment_of_unsupported {m : Matcher} {t : Token} {kind : TokenKind}
    {reading : Reading} (h : m.ask [] kind t = .unsupported reading) :
    kind = .language ∧ (m.ask [] .comment t).isYes = true := by
  obtain rfl := ask_unsupported h
  refine ⟨rfl, ?_⟩
  rcases ask_cases m [] .language t with hno | ⟨_, heof, _⟩ | ⟨l, hl, hline⟩
  · rw [hno] at h
    cases h
  · cases heof
  · rw [hline, readLine, readLanguage] at h
    rw [ask_of_line hl rfl, readLine]
    have hmark : l.startsWith "#".toList = true := by
      by_contra hmark
      rw [languageOf_of_not_hash (Bool.eq_false_iff.mpr hmark)] at h
      cases h
    rw [if_pos hmark]
    rfl

theorem State.comment_of_language (s : State) : ∀ a ∈ s.moves, a.kind = .language →
    ∃ b ∈ s.moves, b.kind = .comment := by
  revert s
  exact State.forall_of_all (by decide)

theorem Trial.run_refused_of_no {hidden : List TokenKind} {moves : List Move} {trial : Trial}
    (hno : ∀ b ∈ moves, (trial.matcher.ask hidden b.kind trial.token).isYes = false ∧
      ∀ reading, trial.matcher.ask hidden b.kind trial.token ≠ .unsupported reading) :
    (run hidden moves trial).refused = trial.refused := by
  induction moves with
  | nil => rfl
  | cons move moves ih =>
      obtain ⟨hyes, hheader⟩ := hno move List.mem_cons_self
      have hrest := ih fun b hb => hno b (List.mem_cons_of_mem _ hb)
      rw [run_cons]
      split
      · exact hrest
      · rfl
      · next reading hask => exact absurd hask (hheader reading)
      · next reading matcher hask =>
          rw [hask] at hyes
          cases hyes

/-- A state that does not expect a line has not taken it for a language header either. -/
theorem State.decide_refused_of_no {s : State} {t : Token} {m : Matcher} {r : Reader}
    (hno : ∀ a ∈ s.moves, (m.ask [] a.kind t).isYes = false) :
    (s.decide [] t m r).refused = [] := by
  refine Trial.run_refused_of_no fun b hb => ⟨hno b (mem_trials.mp hb), ?_⟩
  intro reading hask
  obtain ⟨hkind, hcomment⟩ := Matcher.ask_comment_of_unsupported hask
  obtain ⟨c, hc, hck⟩ := s.comment_of_language b (mem_trials.mp hb) hkind
  rw [← hck, hno c hc] at hcomment
  cases hcomment

theorem Trial.run_of_no {hidden : List TokenKind} {moves : List Move} {trial : Trial}
    (hno : ∀ b ∈ moves, trial.matcher.ask hidden b.kind trial.token = .no) :
    run hidden moves trial = trial := by
  induction moves with
  | nil => rfl
  | cons move moves ih =>
      rw [run_cons, hno move List.mem_cons_self]
      exact ih fun b hb => hno b (List.mem_cons_of_mem _ hb)

/-- The end of the input is not read as anything by a state that does not expect it. -/
theorem State.decide_token_of_end {s : State} {t : Token} {m : Matcher} {r : Reader}
    (hend : t.isEnd = true) (hno : ∀ a ∈ s.moves, (m.ask [] a.kind t).isYes = false) :
    (s.decide [] t m r).token = t := by
  have hline : t.line = none := Option.isNone_iff_eq_none.mp hend
  have hall : ∀ b ∈ s.trials, m.ask [] b.kind t = .no := by
    intro b hb
    have hb' := hno b (mem_trials.mp hb)
    rcases Matcher.ask_cases m [] b.kind t with h | ⟨_, heof, hread⟩ | ⟨l, hl, _⟩
    · exact h
    · rw [hread, heof] at hb'
      cases hb'
    · rw [hline] at hl
      cases hl
  rw [State.decide, Trial.run_of_no hall]

namespace Run

variable {β ρ : Type} [Builder β ρ] {mode : Mode} {s s' : State} {run run' : Run β} {o : Step β}
  {gone : List Int} {fuel : Nat} {move : (Int → Int) → β → β}

/-- A line that is left out leaves nothing behind but its error. -/
theorem Mirrors.leave_out (h : Mirrors move σ run run') (hmode : mode.hidden = [])
    (hgoes : Goes mode s run o s') (hout : (Turn.mk s run).leavesOut = true) :
    s' = s ∧ o.run.reader = run.reader.next.2 ∧ Mirrors move σ o.run run' := by
  cases hgoes with
  | moved a reading ha hask =>
      rw [hmode] at hask
      rw [Turn.leavesOut_eq_false ⟨a, ha, rfl⟩ (by rw [Turn.token, hask]; rfl)] at hout
      cases hout
  | skipped hs hbare hmatcher hreader hno hbuilder herrors =>
      rw [hmode] at hno
      have hheader : run.headerErrors mode s = [] := by
        rw [headerErrors, refusals, decision, hmode, State.decide_refused_of_no hno]
        rfl
      have hline : o.token.isEnd = false := by
        rw [Turn.leavesOut, Bool.and_eq_true, Bool.not_eq_true'] at hout
        rw [Token.isEnd_eq_of_bare_eq hbare]
        exact hout.1
      have hgone : (ParseError.unexpected o.token s.expected).stands = false := by
        rw [ParseError.stands, ParseError.leftOut?_unexpected, hline]
        rfl
      refine ⟨rfl, hreader, ?_, ?_, ?_⟩
      · rw [hmatcher, h.matcher]
      · rw [hbuilder, h.builder]
      · rw [herrors, hheader, List.nil_append, List.filter_append, List.filter_cons, hgone, h.errors]
        simp

theorem move_of_next (h : (run.advance mode s).next = .ok s') :
    ∃ o, (run.decision mode s).move = .ok o := by
  rw [advance_eq] at h
  split at h
  · cases h
  · split at h
    · cases h
    · next hmove => exact ⟨none, hmove⟩
    · next a hmove => exact ⟨some a, hmove⟩

theorem no_of_decision (hmode : mode.hidden = []) (h : (run.decision mode s).move = .ok none) :
    ∀ a ∈ s.moves, (run.matcher.ask [] a.kind run.reader.next.1).isYes = false := by
  have hdec : s.Decides mode.hidden run.reader.next.1 run.matcher run.reader.next.2
      (run.decision mode s) := s.decide_decides _ _ _ _
  rw [hmode] at hdec
  cases hdec with
  | found a _ _ hmove =>
      rw [h] at hmove
      cases hmove
  | broken a _ _ hmove =>
      rw [h] at hmove
      cases hmove
  | none _ _ _ hno => exact hno

/-- What a state has no move for and is still not left out is the end of the input. -/
theorem isEnd_of_no (hno : ∀ a ∈ s.moves, (run.matcher.ask [] a.kind run.reader.next.1).isYes = false)
    (hkept : (Turn.mk s run).leavesOut = false) : run.reader.next.1.isEnd = true := by
  have hany : (s.moves.any fun a =>
      (run.matcher.ask [] a.kind run.reader.next.1).isYes) = false :=
    List.any_eq_false.mpr fun a ha => Bool.eq_false_iff.mp (hno a ha)
  rw [Turn.leavesOut, Turn.token, hany] at hkept
  simpa using hkept

/-- An end of the input that no state expects is the same token in both runs. -/
theorem Mirrors.token_of_end (h : Mirrors move σ run run') (hmode : mode.hidden = [])
    (hplain : run.reader.PlainEnd) (hplain' : run'.reader.PlainEnd)
    (hno : ∀ a ∈ s.moves, (run.matcher.ask [] a.kind run.reader.next.1).isYes = false)
    (hend : run.reader.next.1.isEnd = true)
    (hbare : run'.reader.next.1.bare = run.reader.next.1.bare.renumber σ) :
    (run.decision mode s).token.line = none ∧
      (run'.decision mode s).token = (run.decision mode s).token.renumber σ := by
  have hend' : run'.reader.next.1.isEnd = true := by
    rw [← Token.isEnd_bare, hbare]
    exact hend
  have hno' : ∀ a ∈ s.moves, (run'.matcher.ask [] a.kind run'.reader.next.1).isYes = false := by
    intro a ha
    rw [h.matcher, Matcher.ask_congr (u := run.reader.next.1), hno a ha]
    rw [← Token.bare_line, hbare]
    rfl
  rw [decision, decision, hmode, State.decide_token_of_end hend hno,
    State.decide_token_of_end hend' hno']
  refine ⟨Option.isNone_iff_eq_none.mp hend, ?_⟩
  have hreading := hplain.next.1 hend
  have hreading' := hplain'.next.1 hend'
  generalize run.reader.next.1 = t at *
  generalize run'.reader.next.1 = t' at *
  obtain ⟨number, line, reading⟩ := t
  obtain ⟨number', line', reading'⟩ := t'
  cases hreading
  cases hreading'
  exact hbare

/-- A line that is kept is treated in the same way, and so is the end of the input. -/
theorem Mirrors.keep (hmove : Builder.Follows move) (hmild : Builder.Mild β)
    (h : Mirrors move σ run run') (hmode : mode.hidden = []) (hplain : run.reader.PlainEnd)
    (hplain' : run'.reader.PlainEnd)
    (hd : Trial.Mirrors σ (run.decision mode s) (run'.decision mode s))
    (hkept : (Turn.mk s run).leavesOut = false) (hnext : (run.advance mode s).next = .ok s')
    (hbare : run'.reader.next.1.bare = run.reader.next.1.bare.renumber σ) :
    (run'.advance mode s).next = .ok s' ∧
      Mirrors move σ (run.advance mode s).run (run'.advance mode s).run := by
  have hmirrored : Mirrored move σ (run.advance mode s).ended (run'.advance mode s).ended := by
    obtain ⟨found, hfound⟩ := move_of_next hnext
    cases found with
    | some a =>
        refine advance_mirrored hmove hmild h hd (hd.token a hfound) ?_
        intro hnone
        rw [hfound] at hnone
        cases hnone
    | none =>
        have hno := no_of_decision hmode hfound
        obtain ⟨hline, htoken⟩ :=
          h.token_of_end hmode hplain hplain' hno (isEnd_of_no hno hkept) hbare
        exact advance_mirrored hmove hmild h hd htoken fun _ => hline
  have hgoing : (run.advance mode s).ended.2 = none := by
    rw [Step.ended, hnext]
  obtain ⟨hnone, hmirrors⟩ := hmirrored hgoing
  refine ⟨?_, hmirrors⟩
  cases hnext' : (run'.advance mode s).next with
  | error halt =>
      rw [Step.ended, hnext'] at hnone
      cases hnone
  | ok s'' =>
      rw [next_eq_target hnext, next_eq_target hnext', target, target, hd.move]

/-- If the state comes to look ahead, it has tags before it, and takes them. -/
theorem Goes.kind_of_tagLine {run : Run β} (hgoes : Goes mode s run o s')
    (hlook : s.looksAhead = true)
    (hranks : ∀ kind, s.rank kind < s.rank .tagLine →
      (run.matcher.ask mode.hidden kind run.reader.next.1).isYes = false)
    (htag : (run.matcher.ask mode.hidden .tagLine run.reader.next.1).isYes = true) :
    ∃ a ∈ s.moves, a.kind = .tagLine ∧ s' = a.next ∧ o.run.matcher = run.matcher ∧
      o.run.reader = (run.reader.next.2.lookAhead (run.matcher.lookForExamples mode.hidden)).2 ∧
      a.guarded = (run.reader.next.2.lookAhead (run.matcher.lookForExamples mode.hidden)).1 := by
  obtain ⟨g, hg, hguarded⟩ := List.any_eq_true.mp hlook
  have hgk := s.kind_of_guarded g hg hguarded
  cases hgoes with
  | skipped _ _ _ _ hno =>
      have hnotag := hno g hg
      rw [hgk, htag] at hnotag
      cases hnotag
  | moved a reading ha hask htoken hfirst hreader hguard =>
      have hkind : a.kind = .tagLine := by
        rcases Nat.lt_trichotomy (s.rank a.kind) (s.rank .tagLine) with hlt | heq | hlt
        · have hno := hranks a.kind hlt
          rw [hask] at hno
          cases hno
        · refine (List.idxOf_inj ?_).mp heq
          exact List.mem_map_of_mem (State.mem_trials.mpr ha)
        · rw [hfirst .tagLine hlt] at htag
          cases htag
      refine ⟨a, ha, hkind, rfl, ?_, ?_, hguard hkind hlook⟩
      · refine (Matcher.ask_yes hask).2.eq ?_ ?_ <;> rw [hkind] <;> exact TokenKind.noConfusion
      · rw [hreader, if_pos ⟨hkind, hlook⟩]

/-- The lines that are left out make no difference to a look ahead. -/
theorem sees_remaining (hmode : mode.hidden = []) {a : Move} (hinv : InOrder a.next run)
    (hnext : a.next = if a.guarded then .examplesTags else .scenarioTags)
    (hfuel : run.reader.pending.length < fuel)
    (hgone : LeavesOut gone (run.turns mode fuel a.next))
    (h : run.steps mode fuel a.next = (run', none))
    (hguard : a.guarded = Reader.sees (run.matcher.lookForExamples []) run.reader.upcoming) :
    Reader.sees (run.matcher.lookForExamples []) (Token.remaining gone run.reader.upcoming) =
      Reader.sees (run.matcher.lookForExamples []) run.reader.upcoming := by
  rw [← hguard]
  cases hg : a.guarded with
  | true =>
      rw [hg, if_pos rfl] at hnext
      rw [hnext] at hinv hgone h
      rw [hg] at hguard
      exact sees_remaining_of_examplesTags hmode hinv hfuel hgone h hguard.symm
  | false =>
      rw [hg, if_neg Bool.false_ne_true] at hnext
      rw [hnext] at hinv hgone h
      exact sees_remaining_of_scenarioTags hmode hinv hfuel hgone h

/-- The two runs decide the same, also where they look ahead. -/
theorem decision_mirrors (hmode : mode.hidden = []) {run₁ : Run β} (hinv : InOrder s run)
    (hinv₁ : InOrder s run₁) (hmatcher₁ : run₁.matcher = run.matcher)
    (hbare : run₁.reader.next.1.bare = run.reader.next.1.bare.renumber σ)
    (hgoes : Goes mode s run o s')
    (hrest : run.reader.next.1.isEnd = false →
      run₁.reader.next.2.upcoming =
        (Token.remaining gone o.run.reader.upcoming).map (Token.renumber σ) ∧
      o.run.reader.pending.length < fuel ∧ LeavesOut gone (o.run.turns mode fuel s') ∧
      o.run.steps mode fuel s' = (run', none)) :
    Trial.Mirrors σ (run.decision mode s) (run₁.decision mode s) := by
  rw [decision, decision, hmatcher₁]
  refine State.decide_mirrors hbare fun hlook hranks htag => ?_
  obtain ⟨a, ha, hkind, rfl, hmatcher, hreader, hguard⟩ :=
    hgoes.kind_of_tagLine hlook hranks htag
  obtain ⟨reading, m, hask⟩ := Verdict.isYes_iff.mp htag
  have hline : run.reader.next.1.isEnd = false := by
    rw [Bool.eq_false_iff, ne_eq, Matcher.ask_yes_isEnd hask]
    exact TokenKind.noConfusion
  obtain ⟨hupcoming, hfuel, hgone, hsteps⟩ := hrest hline
  have hqueue := hinv.queue_of_looksAhead hlook
  have hsame : o.run.reader.upcoming = run.reader.next.2.upcoming := by
    rw [hreader, Reader.upcoming_lookAhead Matcher.lookForExamples_bare hqueue]
  rw [hmode] at hguard ⊢
  rw [Reader.lookAhead_fst hqueue, ← hsame] at hguard
  rw [Reader.lookAhead_fst (hinv₁.queue_of_looksAhead hlook), Reader.lookAhead_fst hqueue,
    hupcoming, Reader.sees_renumber, ← hsame, ← hmatcher]
  rw [← hmatcher] at hguard
  exact sees_remaining hmode (hinv.goes hmode hgoes) ((s.next_of_looksAhead hlook).2 a ha hkind)
    hfuel hgone hsteps hguard

/-- Without the lines that a run leaves out, the run takes the same course. -/
theorem steps_mirrored (hmove : Builder.Follows move) (hmild : Builder.Mild β)
    (hmode : mode.hidden = []) {fuel' : Nat} {run₁ : Run β} (htrack : OnTrack s run)
    (htrack₁ : OnTrack s run₁) (hmirrors : Mirrors move σ run run₁)
    (hupcoming : run₁.reader.upcoming =
      (Token.remaining gone run.reader.upcoming).map (Token.renumber σ))
    (hfuel : run.reader.pending.length < fuel) (hfuel' : run₁.reader.pending.length < fuel')
    (hgone : LeavesOut gone (run.turns mode fuel s))
    (h : run.steps mode fuel s = (run', none)) :
    ∃ last, run₁.steps mode fuel' s = (last, none) ∧ Mirrors move σ run' last := by
  induction fuel generalizing s run run₁ fuel' with
  | zero => omega
  | succ fuel ih =>
      obtain ⟨next, hnext, hcases⟩ := steps_inv h
      have hgoes := advance_goes hnext
      have hout : run.reader.next.1.number ∈ gone ↔ (Turn.mk s run).leavesOut = true := by
        refine hgone (Turn.mk s run) ?_
        rcases hcases with ⟨_, _, hturns⟩ | ⟨_, _, hturns⟩ <;> rw [hturns] <;>
          exact List.mem_cons_self
      -- What is known of the rest of the first run if the turn takes a line.
      have hrest : run.reader.next.1.isEnd = false →
          (run.advance mode s).run.reader.pending.length < fuel ∧
          LeavesOut gone ((run.advance mode s).run.turns mode fuel next) ∧
          (run.advance mode s).run.steps mode fuel next = (run', none) := by
        intro hline
        rcases hcases with ⟨hend, _⟩ | ⟨_, hsteps, hturns⟩
        · rw [hline] at hend
          cases hend
        · have hlength := hgoes.pending_length (by rw [hgoes.isEnd, hline])
          rw [hturns] at hgone
          exact ⟨by omega, fun turn hturn => hgone turn (List.mem_cons_of_mem _ hturn), hsteps⟩
      rw [htrack.toInOrder.upcoming_cons hgoes, Token.remaining_cons, Token.bare_number] at hupcoming
      cases hleft : (Turn.mk s run).leavesOut with
      | true =>
          have hline : run.reader.next.1.isEnd = false := by
            rw [Turn.leavesOut, Bool.and_eq_true, Bool.not_eq_true'] at hleft
            exact hleft.1
          obtain ⟨hfuel, hgone, hsteps⟩ := hrest hline
          obtain ⟨rfl, hreader, hmirrors'⟩ := hmirrors.leave_out hmode hgoes hleft
          rw [if_pos (hout.mpr hleft), hline, if_neg Bool.false_ne_true] at hupcoming
          exact ih (htrack.goes hmode hgoes) htrack₁ hmirrors' hupcoming hfuel hfuel' hgone hsteps
      | false =>
          have hkept : run.reader.next.1.number ∉ gone := by
            rw [hout, hleft]
            exact Bool.false_ne_true
          rw [if_neg hkept, List.map_cons, Reader.upcoming_eq] at hupcoming
          obtain ⟨hbare, htail⟩ := List.cons.inj hupcoming
          have hend₁ : run₁.reader.next.1.isEnd = run.reader.next.1.isEnd := by
            rw [← Token.isEnd_bare, hbare]
            rfl
          have htail' : run.reader.next.1.isEnd = false → run₁.reader.next.2.upcoming =
              (Token.remaining gone (run.advance mode s).run.reader.upcoming).map
                (Token.renumber σ) := by
            intro hline
            rw [hend₁, hline] at htail
            exact htail
          have hd := decision_mirrors hmode htrack.toInOrder htrack₁.toInOrder hmirrors.matcher hbare
            hgoes fun hline => ⟨htail' hline, hrest hline⟩
          obtain ⟨hnext₁, hmirrors'⟩ := hmirrors.keep hmove hmild hmode htrack.plainEnd
            htrack₁.plainEnd hd hleft hnext hbare
          have hgoes₁ := advance_goes hnext₁
          obtain ⟨fuel', rfl⟩ : ∃ n, fuel' = n + 1 := ⟨fuel' - 1, by omega⟩
          rw [steps, hnext₁]
          simp only [hgoes₁.isEnd, hend₁]
          cases hend : run.reader.next.1.isEnd with
          | true =>
              refine ⟨_, rfl, ?_⟩
              rcases hcases with ⟨_, rfl, _⟩ | ⟨hline, _⟩
              · exact hmirrors'
              · rw [hend] at hline
                cases hline
          | false =>
              obtain ⟨hfuel, hgone, hsteps⟩ := hrest hend
              have hlength := hgoes₁.pending_length (by rw [hgoes₁.isEnd, hend₁, hend])
              refine ih (htrack.goes hmode hgoes) (htrack₁.goes hmode hgoes₁) hmirrors' ?_ hfuel
                (by omega) hgone hsteps
              have hsame := htrack₁.toInOrder.upcoming_cons hgoes₁
              rw [Reader.upcoming_eq, hend₁, hend] at hsame
              rw [← htail' hend]
              exact (List.cons.inj hsame).2.symm

end Run

end FeatureFile
