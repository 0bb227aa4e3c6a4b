import FeatureFile.Proofs.LineOrder
import FeatureFile.Proofs.Relocation
import FeatureFile.Proofs.Sequence

/-!
# The same run with other line numbers

Two runs that stand in the same state, with the same matcher, and are about to take the same line
do the same, whatever the number of the line is. `Run.Mirrors` relates two such runs. The second has
the first one's builder, renumbered, and of its errors, renumbered, those that do not say that a line
was left out: the second run is meant to be one in which these lines are missing.

As long as the first run is not given up the second is not either, since it has no more errors than
the first. `Run.Mirrored` is carried through the parts of a run in this direction, up to one step
(`Run.advance_mirrored`). The one thing that has to be known of what comes behind the line is what a
look ahead finds.
-/

namespace FeatureFile

/-- The number of the line, if the error says that a line was left out. -/
def ParseError.leftOut? (e : ParseError) : Option Int :=
  match e.cause with
  | .unexpectedToken _ _ => some e.place.line
  | _ => none

theorem ParseError.leftOut?_of_isUnexpected {e : ParseError} (h : e.isUnexpected = false) :
    e.leftOut? = none := by
  unfold isUnexpected at h
  unfold leftOut?
  split at h
  · cases h
  · cases h
  · next hend htoken =>
      split
      · next hcause => exact absurd hcause (htoken _ _)
      · rfl

/-- The error does not say that a line was left out. -/
def ParseError.stands (e : ParseError) : Bool := e.leftOut?.isNone

variable {σ : Int → Int}

/-! ## Decisions -/

namespace Trial

variable {hidden : List TokenKind} {moves : List Move} {x y : Trial}

/-- The same trial of a token with another number. How the token was read before may differ, until a
move has been found. -/
structure Mirrors (σ : Int → Int) (x y : Trial) : Prop where
  bare : y.token.bare = x.token.bare.renumber σ
  matcher : y.matcher = x.matcher
  refused : y.refused = x.refused.map (Token.renumber σ)
  move : y.move = x.move
  token : ∀ a, x.move = .ok (some a) → y.token = x.token.renumber σ

theorem Mirrors.ask (h : Mirrors σ x y) (kind : TokenKind) :
    y.matcher.ask hidden kind y.token = x.matcher.ask hidden kind x.token := by
  rw [h.matcher]
  refine Matcher.ask_congr ?_
  rw [← Token.bare_line, h.bare]
  rfl

theorem Mirrors.withReading (h : Mirrors σ x y) (r : Reading) :
    y.token.withReading r = (x.token.withReading r).renumber σ := by
  have hsame : y.token.bare = (x.token.renumber σ).bare := h.bare
  exact Token.withReading_eq_of_bare_eq hsame r

theorem run_mirrors (hg : ∀ b ∈ moves, b.guarded = false) (h : Mirrors σ x y)
    (h0 : x.move = .ok none) : Mirrors σ (run hidden moves x) (run hidden moves y) := by
  induction moves generalizing x y with
  | nil => exact h
  | cons move moves ih =>
      have hrest : ∀ b ∈ moves, b.guarded = false := fun b hb => hg b (List.mem_cons_of_mem _ hb)
      rw [run_cons, run_cons, h.ask]
      cases x.matcher.ask hidden move.kind x.token with
      | no => exact ih hrest h h0
      | broken fault => exact ⟨h.bare, h.matcher, h.refused, rfl, fun _ ha => nomatch ha⟩
      | unsupported reading =>
          refine ih hrest ⟨h.bare, h.matcher, ?_, h.move, ?_⟩ h0
          · simp only [h.refused, h.withReading, List.map_append, List.map_cons, List.map_nil]
          · intro a ha
            rw [h0] at ha
            cases ha
      | yes reading matcher =>
          simp only [hg move List.mem_cons_self, Bool.false_eq_true, if_false]
          exact ⟨h.bare, rfl, h.refused, rfl, fun _ _ => h.withReading reading⟩

/-- The trial of the two moves for tag lines, and of unguarded moves behind them. -/
theorem run_guard_mirrors {g u : Move} {after : List Move} (hg : g.guarded = true)
    (hgk : g.kind = .tagLine) (hu : u.guarded = false) (huk : u.kind = .tagLine)
    (hafter : ∀ b ∈ after, b.guarded = false) (h : Mirrors σ x y) (h0 : x.move = .ok none)
    (hahead : (x.matcher.ask hidden .tagLine x.token).isYes = true →
      (y.reader.lookAhead (x.matcher.lookForExamples hidden)).1 =
        (x.reader.lookAhead (x.matcher.lookForExamples hidden)).1) :
    Mirrors σ (run hidden (g :: u :: after) x) (run hidden (g :: u :: after) y) := by
  rcases Matcher.ask_tagLine x.matcher hidden x.token with htag | ⟨reading, htag⟩
  · have hskip : ∀ z : Trial, z.matcher.ask hidden .tagLine z.token = .no →
        run hidden (g :: u :: after) z = run hidden after z := by
      intro z hz
      rw [run_cons, hgk, hz, run_cons, huk, hz]
    rw [hskip x htag, hskip y (by rw [h.ask, htag])]
    exact run_mirrors hafter h h0
  · have htag' : y.matcher.ask hidden .tagLine y.token = .yes reading y.matcher := by
      rw [h.ask, htag, h.matcher]
    have hsame := hahead (by rw [htag]; rfl)
    rw [State.run_tagLine hg hgk hu huk htag, State.run_tagLine hg hgk hu huk htag', h.matcher,
      hsame]
    exact ⟨h.bare, rfl, h.refused, rfl, fun _ _ => h.withReading reading⟩

end Trial

/-- What a state decides about a token does not depend on the number of the token, nor on what comes
behind it, as long as a look ahead brings the same. -/
theorem State.decide_mirrors {s : State} {hidden : List TokenKind} {t t' : Token} {m : Matcher}
    {r r' : Reader} (hbare : t'.bare = t.bare.renumber σ)
    (hahead : s.looksAhead = true →
      (∀ kind, s.rank kind < s.rank .tagLine → (m.ask hidden kind t).isYes = false) →
      (m.ask hidden .tagLine t).isYes = true →
      (r'.lookAhead (m.lookForExamples hidden)).1 = (r.lookAhead (m.lookForExamples hidden)).1) :
    Trial.Mirrors σ (s.decide hidden t m r) (s.decide hidden t' m r') := by
  have hstart : Trial.Mirrors σ { token := t, matcher := m, reader := r }
      { token := t', matcher := m, reader := r' } :=
    ⟨hbare, rfl, rfl, rfl, fun _ ha => nomatch ha⟩
  unfold State.decide
  cases s.guards with
  | never hg => exact Trial.run_mirrors hg hstart rfl
  | once before g u after htrials hg hgk hu huk hbefore hafter =>
      have hlook : s.looksAhead = true :=
        looksAhead_eq_true (by rw [htrials]; exact List.mem_append_right _ List.mem_cons_self) hg
      have hplain : ∀ b ∈ before, b.guarded = false := fun b hb => (hbefore b hb).1
      have hends : Trial.Ends hidden { token := t, matcher := m, reader := r } before
          (Trial.run hidden before { token := t, matcher := m, reader := r }) :=
        Trial.run_ends hplain rfl
      have hmid : Trial.Mirrors σ
          (Trial.run hidden before { token := t, matcher := m, reader := r })
          (Trial.run hidden before { token := t', matcher := m, reader := r' }) :=
        Trial.run_mirrors hplain hstart rfl
      have hreader : (Trial.run hidden before { token := t, matcher := m, reader := r }).reader =
          r := Trial.run_reader hplain
      have hreader' : (Trial.run hidden before { token := t', matcher := m, reader := r' }).reader =
          r' := Trial.run_reader hplain
      have hkeep : (Trial.run hidden before { token := t, matcher := m, reader := r }).token.bare =
          t.bare := Trial.run_bare
      rw [htrials, Trial.run_append _ _ rfl, Trial.run_append _ _ rfl, hmid.move]
      generalize Trial.run hidden before { token := t, matcher := m, reader := r } = x at *
      generalize Trial.run hidden before { token := t', matcher := m, reader := r' } = y at *
      cases hends with
      | found _ a _ _ _ hmove _ _ _ =>
          simp only [hmove]
          exact hmid
      | broken a fault _ hmove _ =>
          simp only [hmove]
          exact hmid
      | none hmove hmatcher hno =>
          simp only [hmove]
          change x.matcher = m at hmatcher
          refine Trial.run_guard_mirrors hg hgk hu huk (fun b hb => (hafter b hb).1) hmid hmove ?_
          rw [hmatcher, hreader, hreader', Matcher.ask_congr (Token.line_eq_of_bare_eq hkeep)]
          -- The state comes to the guarded move only if nothing before it can be read.
          refine hahead hlook fun kind hlt => ?_
          rw [← hgk] at hlt
          obtain ⟨b, hb, rfl⟩ := exists_mem_of_rank_lt htrials hlt
          exact hno b hb

/-! ## Runs -/

namespace Run

variable {β ρ : Type} {move : (Int → Int) → β → β} {mode : Mode} {run run' : Run β}
  {x y : Run β × Option Halt}

/-- The second run has come as far as the first, with other numbers and without the lines that the
first has left out. -/
structure Mirrors (move : (Int → Int) → β → β) (σ : Int → Int) (run run' : Run β) : Prop where
  matcher : run'.matcher = run.matcher
  builder : run'.builder = move σ run.builder
  errors : run'.errors = (run.errors.filter ParseError.stands).map (ParseError.renumber σ)

/-- If the first run has not been given up, the second has not either, and mirrors it. -/
def Mirrored (move : (Int → Int) → β → β) (σ : Int → Int) (x y : Run β × Option Halt) : Prop :=
  x.2 = none → y.2 = none ∧ Mirrors move σ x.1 y.1

theorem Mirrors.length_le (h : Mirrors move σ run run') :
    run'.errors.length ≤ run.errors.length := by
  rw [h.errors, List.length_map]
  exact List.length_filter_le _ _

theorem Mirrors.mirrored (h : Mirrors move σ run run') :
    Mirrored move σ (run, none) (run', none) := fun _ => ⟨rfl, h⟩

theorem Mirrored.andThen {f g : Run β → Run β × Option Halt} (h : Mirrored move σ x y)
    (hfg : ∀ run run', Mirrors move σ run run' → Mirrored move σ (f run) (g run')) :
    Mirrored move σ (andThen x f) (andThen y g) := by
  obtain ⟨run, _ | halt⟩ := x
  · obtain ⟨run', halt⟩ := y
    obtain ⟨hnone, hmirrors⟩ := h rfl
    change halt = none at hnone
    subst hnone
    exact hfg run run' hmirrors
  · intro hnone
    cases hnone

theorem report_mirrored {raised raised' kept : ParseError} (h : Mirrors move σ run run')
    (hkept : kept.leftOut? = none) :
    Mirrored move σ (run.report mode raised kept)
      (run'.report mode raised' (kept.renumber σ)) := by
  have hle := h.length_le
  have hstands : kept.stands = true := by rw [ParseError.stands, hkept]; rfl
  intro hnone
  unfold report at hnone ⊢
  by_cases hstop : mode.stopAtFirst = true
  · rw [if_pos hstop] at hnone
    cases hnone
  · rw [if_neg hstop] at hnone
    rw [if_neg hstop, if_neg hstop]
    by_cases hlen : run.errors.length < tolerance
    · rw [if_pos hlen, if_pos (by omega)]
      refine ⟨rfl, h.matcher, h.builder, ?_⟩
      simp only [h.errors, List.filter_append, List.map_append, List.filter_cons, hstands,
        List.filter_nil, if_true, List.map_cons, List.map_nil]
    · rw [if_neg hlen] at hnone
      cases hnone

theorem reportAll_mirrored {es : List (ParseError × ParseError)} (h : Mirrors move σ run run')
    (hkept : ∀ e ∈ es, e.2.leftOut? = none) :
    Mirrored move σ (run.reportAll mode es) (run'.reportAll mode
      (es.map (Prod.map (ParseError.renumber σ) (ParseError.renumber σ)))) := by
  induction es generalizing run run' with
  | nil => exact h.mirrored
  | cons e es ih =>
      rw [List.map_cons, reportAll_cons, reportAll_cons]
      refine (report_mirrored h (hkept e List.mem_cons_self)).andThen fun _ _ h' => ?_
      exact ih h' fun e he => hkept e (List.mem_cons_of_mem _ he)

theorem refuse_mirrored {o : Option Refusal} (h : Mirrors move σ run run')
    (hmild : ∀ r ∈ o, ∀ e ∈ r.toErrors, e.isUnexpected = false) :
    Mirrored move σ (run.refuse mode o) (run'.refuse mode (o.map (Refusal.renumber σ))) := by
  have hkept : ∀ r ∈ o, ∀ e ∈ r.toErrors, e.leftOut? = none :=
    fun r hr e he => ParseError.leftOut?_of_isUnexpected (hmild r hr e he)
  match o with
  | none => exact h.mirrored
  | some (.error e) => exact report_mirrored h (hkept _ rfl e (List.mem_singleton_self e))
  | some (.errors es) =>
      simp only [refuse, Option.map_some, Refusal.renumber]
      split
      · intro hnone
        cases hnone
      · have hall : ∀ p ∈ es.map fun e => (e, e), p.2.leftOut? = none := by
          intro p hp
          obtain ⟨e, he, rfl⟩ := List.mem_map.mp hp
          exact hkept _ rfl e he
        have hreported : Mirrored move σ (run.reportAll mode _) _ := reportAll_mirrored h hall
        rw [List.map_map] at hreported ⊢
        exact hreported
  | some (.fault f) =>
      intro hnone
      cases hnone

variable [Builder β ρ] (hmove : Builder.Follows move) (hmild : Builder.Mild β)
include hmove hmild

theorem call_mirrored {c : Call} (h : Mirrors move σ run run') :
    Mirrored move σ (run.call mode c) (run'.call mode (c.renumber σ)) := by
  have hreceive := hmove.receive σ c run.builder
  rw [← h.builder] at hreceive
  simp only [call, hreceive]
  exact refuse_mirrored ⟨h.matcher, rfl, h.errors⟩ (hmild c run.builder)

theorem callAll_mirrored {cs : List Call} (h : Mirrors move σ run run') :
    Mirrored move σ (run.callAll mode cs) (run'.callAll mode (cs.map (Call.renumber σ))) := by
  induction cs generalizing run run' with
  | nil => exact h.mirrored
  | cons c cs ih =>
      rw [List.map_cons, callAll_cons, callAll_cons]
      exact (call_mirrored hmove hmild h).andThen fun _ _ h' => ih h'

omit hmove hmild in
theorem callsOf_renumber (a : Move) (t : Token) :
    callsOf a (t.renumber σ) = (callsOf a t).map (Call.renumber σ) := by
  simp only [callsOf, List.map_append, List.map_map, Function.comp_def, Call.renumber,
    List.map_cons, List.map_nil]

omit hmove hmild in
theorem refusals_renumber {d d' : Trial} (hd : Trial.Mirrors σ d d')
    (htoken : d'.token = d.token.renumber σ) :
    refusals d' =
      (refusals d).map (Prod.map (ParseError.renumber σ) (ParseError.renumber σ)) := by
  rw [refusals, refusals, hd.refused, List.map_map, List.map_map, htoken]
  rfl

/-- Two runs do the same with a line that is not left out, and with the end of the input. -/
theorem advance_mirrored {s : State} (h : Mirrors move σ run run')
    (hd : Trial.Mirrors σ (run.decision mode s) (run'.decision mode s))
    (htoken : (run'.decision mode s).token = (run.decision mode s).token.renumber σ)
    (hkept : (run.decision mode s).move = .ok none → (run.decision mode s).token.line = none) :
    Mirrored move σ (run.advance mode s).ended (run'.advance mode s).ended := by
  rw [ended_advance, ended_advance, refusals_renumber hd htoken]
  generalize run.decision mode s = d at *
  generalize run'.decision mode s = d' at *
  have hheader : ∀ e ∈ refusals d, e.2.leftOut? = none := by
    intro e he
    obtain ⟨t, _, rfl⟩ := List.mem_map.mp he
    rfl
  have hset : Mirrors move σ { run with matcher := d.matcher, reader := d.reader }
      { run' with matcher := d'.matcher, reader := d'.reader } :=
    ⟨hd.matcher, h.builder, h.errors⟩
  refine (reportAll_mirrored hset hheader).andThen ?_
  intro mid mid' hmid
  rw [settle, settle, hd.move, htoken]
  cases hmove' : d.move with
  | error fault =>
      intro hnone
      cases hnone
  | ok o =>
      cases o with
      | none =>
          simp only []
          split
          · intro hnone
            cases hnone
          · have hend := hkept hmove'
            have herror : ParseError.unexpected (d.token.renumber σ) s.expected =
                (ParseError.unexpected d.token s.expected).renumber σ := by
              have hend' : (d.token.renumber σ).line = none := hend
              simp only [ParseError.unexpected, hend, hend']
              rfl
            rw [herror]
            refine report_mirrored hmid ?_
            simp only [ParseError.unexpected, hend]
            rfl
      | some a =>
          simp only [callsOf_renumber]
          exact callAll_mirrored hmove hmild hmid

end Run

end FeatureFile
