import FeatureFile.Proofs.LeftOut
import FeatureFile.Proofs.Meaning
import FeatureFile.Proofs.Trails

/-!
# The structure of what is accepted

Every source that a parser accepts has a layout, and the document that comes out is the value of the
layout (`Parser.exists_layout`). So whatever is said about the documents of accepted sources can be
read off layouts, where nothing is looked up by label and no rule is open.

The run of the parser gives a trail with the tokens that it hands over. Their kinds are a word of the
grammar, so that they have a layout; the layout has a trail too, and trails are unique. So the
builder has been told the parts of the layout.
-/

namespace FeatureFile

/-! ## What is tried before -/

/-- What has been refused stays so. -/
theorem Trial.refused_kept {hidden : List TokenKind} {moves : List Move} {trial : Trial}
    (h : (run hidden moves trial).refused = []) : trial.refused = [] := by
  induction moves generalizing trial with
  | nil => exact h
  | cons move moves ih =>
      rw [run_cons] at h
      split at h
      · exact ih h
      · exact h
      · have hkept := ih h
        exact (List.append_eq_nil_iff.mp hkept).1
      · split at h
        · split at h
          · exact h
          · have hkept := ih h
            exact hkept
        · exact h

/-- In a trial that is not broken off and refuses nothing, what does not accept the token has been
answered with a plain no. -/
theorem Trial.no_of_run {hidden : List TokenKind} {trial : Trial} {before after : List Move}
    (hbefore : ∀ c ∈ before, (trial.matcher.ask hidden c.kind trial.token).isYes = false)
    (hmove : ∀ fault, (run hidden (before ++ after) trial).move ≠ .error fault)
    (hrefused : (run hidden (before ++ after) trial).refused = []) :
    ∀ c ∈ before, trial.matcher.ask hidden c.kind trial.token = .no := by
  induction before with
  | nil =>
      intro c hc
      cases hc
  | cons b before ih =>
      have hno := hbefore b List.mem_cons_self
      rw [List.cons_append, run_cons] at hmove hrefused
      cases hask : trial.matcher.ask hidden b.kind trial.token with
      | no =>
          rw [hask] at hmove hrefused
          have hrest := ih (fun c hc => hbefore c (List.mem_cons_of_mem _ hc)) hmove hrefused
          exact List.forall_mem_cons.mpr ⟨hask, hrest⟩
      | yes reading next =>
          rw [hask] at hno
          cases hno
      | broken fault =>
          rw [hask] at hmove
          exact absurd rfl (hmove fault)
      | unsupported reading =>
          rw [hask] at hrefused
          have hkept := refused_kept hrefused
          exact absurd (List.append_eq_nil_iff.mp hkept).2 (List.cons_ne_nil _ _)

/-- The moves that a state tries in front of those for some kind. -/
theorem State.exists_split {s : State} {a : Move} (ha : a ∈ s.moves) :
    ∃ before b after, s.trials = before ++ b :: after ∧ b.kind = a.kind ∧
      (∀ c ∈ before, s.rank c.kind < s.rank a.kind) ∧
      ∀ kind, s.rank kind < s.rank a.kind → ∃ c ∈ before, c.kind = kind := by
  have hkind : a.kind ∈ s.trials.map Move.kind := List.mem_map_of_mem (mem_trials.mpr ha)
  obtain ⟨ks, ks', hsplit, hnot⟩ := List.eq_append_cons_of_mem hkind
  have hrank : s.rank a.kind = ks.length := by
    rw [rank, hsplit, List.idxOf_append_of_notMem hnot, List.idxOf_cons_self, Nat.add_zero]
  obtain ⟨before, rest, htrials, rfl, hrest⟩ := List.map_eq_append_iff.mp hsplit
  obtain ⟨b, after, rfl, hb, _⟩ := List.map_eq_cons_iff.mp hrest
  refine ⟨before, b, after, htrials, hb, fun c hc => ?_, fun kind hlt => ?_⟩
  · have hmem : c.kind ∈ before.map Move.kind := List.mem_map_of_mem hc
    rw [hrank, rank, hsplit, List.idxOf_append_of_mem hmem]
    exact List.idxOf_lt_length_of_mem hmem
  · rw [← hb] at hlt
    exact exists_mem_of_rank_lt htrials hlt

theorem State.exists_move_of_rank_lt {s : State} {a : Move} (ha : a ∈ s.moves) {kind : TokenKind}
    (h : s.rank kind < s.rank a.kind) : ∃ c ∈ s.moves, c.kind = kind := by
  obtain ⟨before, _, _, htrials, _, _, hmem⟩ := exists_split ha
  obtain ⟨c, hc, hkind⟩ := hmem kind h
  refine ⟨c, ?_, hkind⟩
  rw [← mem_trials, htrials]
  exact List.mem_append_left _ hc

theorem State.no_before {s : State} {hidden : List TokenKind} {t : Token} {m : Matcher}
    {r : Reader} {a : Move} (ha : a ∈ s.moves)
    (hfirst : ∀ kind, s.rank kind < s.rank a.kind → (m.ask hidden kind t).isYes = false)
    (hmove : ∀ fault, (s.decide hidden t m r).move ≠ .error fault)
    (hrefused : (s.decide hidden t m r).refused = []) :
    ∀ kind, s.rank kind < s.rank a.kind → m.ask hidden kind t = .no := by
  obtain ⟨before, b, after, htrials, _, hless, hmem⟩ := exists_split ha
  rw [State.decide, htrials] at hmove hrefused
  have hno := Trial.no_of_run (fun c hc => hfirst c.kind (hless c hc)) hmove hrefused
  intro kind hlt
  obtain ⟨c, hc, rfl⟩ := hmem kind hlt
  exact hno c hc

theorem Run.move_ne_error {β ρ : Type} [Builder β ρ] {mode : Mode} {s s' : State} {run : Run β}
    (h : (run.advance mode s).next = .ok s') (fault : Fault) :
    (run.decision mode s).move ≠ .error fault := by
  intro hmove
  rw [advance_eq, hmove] at h
  generalize reportAll _ _ _ = outcome at h
  obtain ⟨mid, _ | halt⟩ := outcome <;> cases h

/-! ## Strides of a run -/

/-- The token of a stride is as the matcher reads it, and what the state tries before does not
accept it. -/
structure Stride.Taken (m : Matcher) (x : Stride) (next : Matcher) : Prop where
  ask : ∃ reading, x.token.reading = some reading ∧
    m.ask [] x.move.kind x.token = .yes reading next
  before : ∀ kind, x.state.rank kind < x.state.rank x.move.kind → m.ask [] kind x.token = .no

/-- Strides in a row, with the matchers in between. -/
inductive Taken : Matcher → List Stride → Matcher → Prop where
  | nil (m : Matcher) : Taken m [] m
  | cons {m next last : Matcher} {x : Stride} {xs : List Stride} (first : x.Taken m next)
      (rest : Taken next xs last) : Taken m (x :: xs) last

theorem Taken.of_forall {m : Matcher} {xs : List Stride} (h : ∀ x ∈ xs, x.Taken m m) :
    Taken m xs m := by
  induction xs with
  | nil => exact .nil m
  | cons x xs ih =>
      exact .cons (h x List.mem_cons_self) (ih fun y hy => h y (List.mem_cons_of_mem _ hy))

theorem Taken.exists_of_mem {m last : Matcher} {xs : List Stride} (h : Taken m xs last) :
    ∀ x ∈ xs, ∃ m next, x.Taken m next := by
  induction h with
  | nil m =>
      intro x hx
      cases hx
  | @cons m next last x xs first _ ih =>
      intro y hy
      rcases List.mem_cons.mp hy with rfl | hy
      · exact ⟨m, next, first⟩
      · exact ih y hy

namespace Run

variable {mode : Mode} {s s' : State} {run run' : Run (Recorder DocumentBuilder)}
  {o : Step (Recorder DocumentBuilder)}

/-- A turn without errors is a stride that the builder does not refuse. -/
theorem Goes.exists_stride (h : Goes mode s run o s') (hmode : mode.hidden = [])
    (hwhole : ∀ fault, (run.decision mode s).move ≠ .error fault)
    (hhealthy : run.builder.builder.Healthy s)
    (hinside : run.matcher.separator.isSome = s.inDocString) (hquiet : o.run.errors = []) :
    ∃ a ∈ s.moves, a.next = s' ∧ Stride.Taken run.matcher ⟨s, a, o.token⟩ o.run.matcher ∧
      o.token.kind? = some a.kind ∧ (o.token.isEnd = true ↔ s' = .finished) ∧
      o.run.builder.tokens = run.builder.tokens ++ [o.token] ∧
      o.run.builder.log.map Prod.fst = run.builder.log.map Prod.fst ++ callsOf a o.token ∧
      Builder.feed (callsOf a o.token) run.builder.builder = (o.run.builder.builder, []) ∧
      o.run.builder.builder.Healthy s' := by
  have hend := h.isEnd
  cases h with
  | moved a reading ha hask htoken hfirst _ _ hbuilder herrors =>
      rw [hmode] at hask hfirst
      have hserves := Matcher.serves_of_ask hinside ha hask hfirst
      rw [← htoken] at hserves
      obtain ⟨hkept, herror⟩ := hhealthy.feed ha hserves
      have hrecorded := Recorder.feed_eq (callsOf a o.token) run.builder
      have hnone : (Builder.feed (callsOf a o.token) run.builder.builder).2 = [] := by
        -- An error that the builder reports is collected.
        rw [hquiet, hrecorded] at herrors
        have hnil := (List.append_eq_nil_iff.mp (List.append_eq_nil_iff.mp herrors.symm).2).2
        refine List.eq_nil_iff_forall_not_mem.mpr fun r hr => ?_
        cases r with
        | error e =>
            have := List.flatMap_eq_nil_iff.mp hnil _ hr
            cases this
        | errors es => exact (herror _ hr).elim
        | fault fault => exact (herror _ hr).elim
      have hfed : o.run.builder.builder =
          (Builder.feed (callsOf a o.token) run.builder.builder).1 := by
        rw [hbuilder, hrecorded]
      have hrefused : (run.decision mode s).refused = [] := by
        -- So is the error of a header that is refused.
        rw [hquiet] at herrors
        have hnil := (List.append_eq_nil_iff.mp (List.append_eq_nil_iff.mp herrors.symm).2).1
        exact List.map_eq_nil_iff.mp (List.map_eq_nil_iff.mp hnil)
      rw [← hmode] at hfirst
      refine ⟨a, ha, rfl, ⟨⟨reading, ?_, ?_⟩, ?_⟩, hserves.kind, ?_, ?_, ?_, ?_, ?_⟩
      · rw [htoken, Token.withReading_reading]
      · rw [htoken, Matcher.ask_withReading]
        exact hask
      · intro kind hrank
        rw [htoken, Matcher.ask_withReading, ← hmode]
        exact State.no_before ha hfirst hwhole hrefused kind hrank
      · rw [hend, Matcher.ask_yes_isEnd hask, s.next_eq_finished a ha]
      · rw [hbuilder, Recorder.tokens_feed]
      · rw [hbuilder, hrecorded, List.map_append, Builder.trace_fst]
      · rw [hfed, ← hnone]
      · rw [hfed]
        exact hkept
  | skipped _ _ _ _ _ _ herrors =>
      rw [hquiet] at herrors
      simp at herrors

/-- A run without errors follows a trail to the last state. -/
theorem steps_trail {fuel : Nat} (hmode : mode.hidden = [])
    (hfuel : run.reader.pending.length < fuel) (hhealthy : run.builder.builder.Healthy s)
    (hinside : run.matcher.separator.isSome = s.inDocString)
    (h : run.steps mode fuel s = (run', none)) (hnil : run'.errors = []) :
    ∃ xs, Trail s xs .finished ∧ Taken run.matcher xs run'.matcher ∧
      run'.builder.tokens = run.builder.tokens ++ xs.map Stride.token ∧
      run'.builder.log.map Prod.fst = run.builder.log.map Prod.fst ++ xs.flatMap Stride.calls ∧
      Builder.feed (xs.flatMap Stride.calls) run.builder.builder = (run'.builder.builder, []) := by
  induction fuel generalizing s run with
  | zero => omega
  | succ fuel ih =>
      obtain ⟨next, hnext, hcases⟩ := steps_inv h
      have hgoes := advance_goes hnext
      have hkept : (run.advance mode s).run.errors = [] := by
        rcases hcases with ⟨_, rfl, _⟩ | ⟨_, hsteps, _⟩
        · exact hnil
        · have hlater := steps_errors_kept hsteps
          rw [hnil] at hlater
          exact List.prefix_nil.mp hlater
      obtain ⟨a, ha, rfl, htaken, hkind, hlast, htokens, hlog, hfeed, hhealthy'⟩ :=
        hgoes.exists_stride hmode (move_ne_error hnext) hhealthy hinside hkept
      rcases hcases with ⟨hend, rfl, _⟩ | ⟨hend, hsteps, _⟩
      · rw [← hgoes.isEnd, hlast] at hend
        refine ⟨[⟨s, a, (run.advance mode s).token⟩], ?_, .cons htaken (.nil _), htokens, ?_, ?_⟩
        · exact .cons ha hkind (hend ▸ .nil _)
        · rw [List.flatMap_singleton]
          exact hlog
        · rw [List.flatMap_singleton]
          exact hfeed
      · have hlength := hgoes.pending_length (by rw [hgoes.isEnd, hend])
        obtain ⟨xs, htrail, hrest, hmore, hlater, hfed⟩ := ih (by omega) hhealthy'
          (hgoes.inDocString hinside) hsteps
        refine ⟨⟨s, a, (run.advance mode s).token⟩ :: xs, .cons ha hkind htrail,
          .cons htaken hrest, ?_, ?_, ?_⟩
        · rw [hmore, htokens, List.append_assoc]
          rfl
        · rw [hlater, hlog, List.append_assoc, List.flatMap_cons]
          rfl
        · have hstep : Builder.feed (Stride.calls ⟨s, a, (run.advance mode s).token⟩)
              run.builder.builder = ((run.advance mode s).run.builder.builder, []) := hfeed
          rw [List.flatMap_cons, Builder.feed_append, hstep]
          simp only [hfed, List.nil_append]

end Run

theorem Fate.built_sublist (fates : List Fate) :
    (fates.filterMap built?).Sublist (fates.map token) := by
  induction fates with
  | nil => exact List.Sublist.slnil
  | cons f fates ih =>
      rw [List.filterMap_cons, List.map_cons, built?]
      cases f.leftOutBy with
      | none => exact ih.cons_cons _
      | some s => exact ih.cons _

namespace Parser

variable {parser : Parser DocumentBuilder} {matcher : Matcher} {source : Text}

/-- What is handed over has been taken, in the same order. -/
theorem takesEachOnce_of_parse_ok (hmatcher : matcher.default ∈ Dialect.table)
    {d : Option Document} (h : (parser.parse matcher source).outcome = .ok d) :
    parser.TakesEachOnce matcher source ∧
      (parser.built matcher source).Sublist (parser.taken matcher source) := by
  obtain ⟨last, _, hloop, _⟩ := loop_of_parse_ok h
  have honce : parser.TakesEachOnce matcher source :=
    takesEachOnce DocumentBuilder.mild rfl hmatcher (by rw [hloop])
  obtain ⟨fates, hfates, hbuilt, _⟩ := honce.fates
  refine ⟨honce, ?_⟩
  rw [← hbuilt, ← hfates]
  exact Fate.built_sublist fates

/-- A parse without errors hands over all that it takes, every line and the end of the source. -/
theorem built_bare (hmatcher : matcher.default ∈ Dialect.table) {d : Option Document}
    (h : (parser.parse matcher source).outcome = .ok d) :
    (parser.built matcher source).map Token.bare = Reader.fresh 0 (Text.lines source) := by
  obtain ⟨last, closed, hloop, hclose, hnil, _⟩ := loop_of_parse_ok h
  obtain ⟨honce, _⟩ := takesEachOnce_of_parse_ok hmatcher h
  obtain ⟨fates, hfates, hbuilt, herrors⟩ := honce.fates
  rw [hloop, Run.errors_of_call hclose hnil] at herrors
  have hall : ∀ f ∈ fates, f.built? = some f.token := by
    intro f hf
    have hnone := List.filterMap_eq_nil_iff.mp herrors f hf
    rw [Fate.built?, Option.map_eq_none_iff.mp hnone]
  have htaken : parser.built matcher source = parser.taken matcher source := by
    rw [← hbuilt, ← hfates, ← List.filterMap_eq_map]
    exact List.filterMap_congr hall
  rw [htaken, Token.map_bare, honce.numbers, honce.lines, ← Reader.fresh_number 0,
    ← Reader.fresh_line 0, ← Token.map_bare, Reader.fresh_bare]

theorem result_of_parse_ok {β ρ : Type} [Builder β ρ] {parser : Parser β} {r : ρ}
    (h : (parser.parse matcher source).outcome = .ok r) :
    Builder.result (parser.parse matcher source).parser.builder = .ok r := by
  rw [parse_eq] at h ⊢
  generalize (parser.start matcher source).complete parser.mode = outcome at h ⊢
  obtain ⟨closed, _ | halt⟩ := outcome
  · cases hresult : Builder.result closed.builder with
    | error fault =>
        simp only [hresult, Except.mapError] at h
        cases h
    | ok r' =>
        simp only [hresult, Except.mapError, Except.ok.injEq] at h
        rw [← h]
  · cases h

/-- The tokens of an accepted source have a layout, of which the document is the value. The lines of
free text stand in the layout as they were read, and the calls of the parse are those of its parts. -/
theorem exists_layout {d : Option Document}
    (h : (parser.parse matcher source).outcome = .ok d) :
    ∃ (x : Layout.Document) (xs : List Stride) (last : Matcher),
      x.tokens = parser.built matcher source ∧ x.Valid ∧ d = some x.value ∧
      Trail .start xs .finished ∧ Taken matcher.reset xs last ∧ xs.map Stride.token = x.tokens ∧
      xs.filterMap Stride.spot? = x.spots ∧
      (parser.recording.parse matcher source).parser.builder.log.map Prod.fst =
        .opened .document :: (Part.callsAll x.parts ++ [.closed .document]) := by
  obtain ⟨w, hw, hkinds⟩ := document_of_parse_ok h
  obtain ⟨x, hx⟩ := Layout.document_covers _ ⟨w, hw, hkinds⟩
  rw [← parse_recording] at h
  obtain ⟨run, closed, hloop, hclose, hnil, hbuilder⟩ := loop_of_parse_ok h
  have hrun := Run.errors_of_call hclose hnil
  have hopened := (DocumentBuilder.sturdy.opened parser.builder).2
  obtain ⟨xs, htrail, htaken, htokens, hlog, hfeed⟩ :=
    Run.steps_trail rfl (Nat.lt_succ_self _) hopened rfl hloop hrun
  have hbuilt : parser.built matcher source = xs.map Stride.token := by
    rw [built_eq rfl, hloop]
    exact htokens
  obtain ⟨ys, htrail', htokens', hcalls, hspots⟩ := x.exists_trail
  have heq : ys = xs := htrail'.unique htrail (by rw [htokens', ← hbuilt]; exact hx)
  subst heq
  obtain ⟨hvalid, hvalue⟩ := DocumentBuilder.feed_layout x rfl
  rw [← hcalls] at hvalid hvalue
  have hfed : Builder.feed (ys.flatMap Stride.calls)
      ({ stack := [{ rule := .document }, { rule := .root }] } : DocumentBuilder) =
      (run.builder.builder, []) := hfeed
  rw [hfed] at hvalid hvalue
  have hok := hvalid.mp rfl
  have hclosed : closed.builder = (Builder.receive (.closed .document) run.builder).1 :=
    (Run.call_none hclose).builder
  refine ⟨x, ys, run.matcher, hx, hok, ?_, htrail, htaken, htokens', hspots, ?_⟩
  · have hresult := result_of_parse_ok h
    rw [hbuilder, hclosed] at hresult
    exact Except.ok.inj (hresult.symm.trans (hvalue hok))
  · rw [hbuilder, hclosed, ← hcalls]
    change (run.builder.log ++ [_]).map Prod.fst = _
    rw [List.map_append, hlog]
    rfl

end Parser

theorem eq_ok_some_of_join {ε α : Type} {x : Except ε (Option α)} {a : α}
    (h : x.toOption.join = some a) : x = .ok (some a) := by
  cases x with
  | error e => cases h
  | ok o =>
      cases o with
      | none => cases h
      | some b =>
          cases h
          rfl

end FeatureFile
