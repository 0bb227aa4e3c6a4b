import FeatureFile.Proofs.LeftOut

/-!
# Recovery is leaving lines out

Error recovery has a simple meaning. Let a parse collect errors and come to its end, with fewer of
them than make it give up. Delete from the source the lines that it has reported as unexpected. Then
what is left is parsed with the same calls to the builder, and with those errors that remain, at the
places that the lines have now: `Parser.recovery_leaves_lines_out`.

`Run.steps_mirrored` has the argument for runs. This module is about the source and the ends of a
parse: which lines the errors report, that a source without some lines has the lines that remain,
and that a parse with few errors has not been given up.
-/

namespace FeatureFile

/-! ## Sources without some of their lines -/

namespace Text

/-- Lines of a source that are put together again are lines again, also if some are missing. -/
theorem lines_flatten_of_sublist {source : Text} {ls : List Text}
    (h : ls.Sublist (lines source)) : lines ls.flatten = ls := by
  induction source generalizing ls with
  | nil =>
      rw [lines, List.sublist_nil] at h
      rw [h]
      rfl
  | cons c cs ih =>
      by_cases hc : c = '\n'
      · rw [lines, if_pos hc] at h
        cases h with
        | cons _ h => exact ih h
        | cons_cons _ h =>
            rw [List.flatten_cons, List.singleton_append, lines, if_pos rfl, ih h]
      · rw [lines, if_neg hc] at h
        cases hcs : lines cs with
        | nil =>
            rw [hcs] at h
            rcases List.sublist_singleton.mp h with rfl | rfl
            · rfl
            · simp [lines, hc]
        | cons l ls' =>
            rw [hcs] at h ih
            cases h with
            | cons _ h => exact ih (h.cons l)
            | cons_cons _ h =>
                have hrest := ih (h.cons_cons l)
                rw [List.flatten_cons] at hrest ⊢
                rw [List.cons_append, lines, if_neg hc, hrest]

/-- The lines whose numbers are not in `gone`; `n` is the number of lines in front of them. -/
def remainingLines (gone : List Int) (n : Nat) : List Line → List Line
  | [] => []
  | l :: ls =>
    if (n + 1 : Int) ∈ gone then remainingLines gone (n + 1) ls
    else l :: remainingLines gone (n + 1) ls

/-- The source without the lines that have these numbers. -/
def without (gone : List Int) (source : Text) : Text :=
  (remainingLines gone 0 (lines source)).flatten

/-- How many of the first `n` lines are not in `gone`. -/
def remainingUpTo (gone : List Int) (n : Nat) : Nat :=
  ((List.range n).filter fun k : Nat => (k + 1 : Int) ∉ gone).length

/-- The number of a line in the source without the lines that are gone. -/
def numberWithout (gone : List Int) (n : Int) : Int := remainingUpTo gone n.toNat

theorem remainingLines_sublist (gone : List Int) (n : Nat) (ls : List Line) :
    (remainingLines gone n ls).Sublist ls := by
  induction ls generalizing n with
  | nil => exact .slnil
  | cons l ls ih =>
      rw [remainingLines]
      split
      · exact (ih (n + 1)).cons l
      · exact (ih (n + 1)).cons_cons l

theorem lines_without (gone : List Int) (source : Text) :
    lines (without gone source) = remainingLines gone 0 (lines source) :=
  lines_flatten_of_sublist (remainingLines_sublist gone 0 _)

theorem remainingUpTo_succ (gone : List Int) (n : Nat) :
    remainingUpTo gone (n + 1) =
      if (n + 1 : Int) ∈ gone then remainingUpTo gone n else remainingUpTo gone n + 1 := by
  rw [remainingUpTo, List.range_succ, List.filter_append, List.length_append, remainingUpTo]
  by_cases h : (n + 1 : Int) ∈ gone <;> simp [h]

theorem numberWithout_succ (gone : List Int) (n : Nat) :
    numberWithout gone (n + 1) = remainingUpTo gone (n + 1) := rfl

end Text

/-- The lines that remain are numbered as they are in the source without the others. -/
theorem Reader.fresh_remainingLines (gone : List Int) (n : Nat) (ls : List Line)
    (hend : (n + ls.length + 1 : Int) ∉ gone) :
    fresh (Text.remainingUpTo gone n) (Text.remainingLines gone n ls) =
      (Token.remaining gone (fresh n ls)).map (Token.renumber (Text.numberWithout gone)) := by
  induction ls generalizing n with
  | nil =>
      have hkept : (n + 1 : Int) ∉ gone := by simpa using hend
      rw [fresh, Token.remaining_cons, if_neg hkept, Text.remainingLines, fresh]
      simp only [Token.remaining, List.filter_nil, List.map_cons, List.map_nil, Token.renumber,
        Text.numberWithout_succ, Text.remainingUpTo_succ, if_neg hkept, Int.natCast_add]
      rfl
  | cons l ls ih =>
      have hend' : ((n + 1 : Nat) + ls.length + 1 : Int) ∉ gone := by
        have heq : ((n + 1 : Nat) + ls.length + 1 : Int) = n + (l :: ls).length + 1 := by
          simp only [List.length_cons]
          omega
        rw [heq]
        exact hend
      have hrest := ih (n + 1) hend'
      rw [Text.remainingUpTo_succ] at hrest
      rw [fresh, Token.remaining_cons, Text.remainingLines]
      by_cases hgone : (n + 1 : Int) ∈ gone
      · rw [if_pos hgone] at hrest ⊢
        rw [if_pos hgone]
        exact hrest
      · rw [if_neg hgone] at hrest ⊢
        rw [if_neg hgone, fresh, hrest, List.map_cons]
        simp only [Token.renumber, Text.numberWithout_succ, Text.remainingUpTo_succ, if_neg hgone,
          Int.natCast_add]
        rfl

theorem Reader.number_le_of_mem_fresh {n : Nat} {ls : List Line} {t : Token}
    (h : t ∈ fresh n ls) (hline : t.isEnd = false) : t.number ≤ n + ls.length := by
  induction ls generalizing n with
  | nil =>
      rw [fresh, List.mem_singleton] at h
      rw [h] at hline
      cases hline
  | cons l ls ih =>
      rw [fresh] at h
      rw [List.length_cons]
      rcases List.mem_cons.mp h with rfl | h
      · simp only []
        omega
      · have hle := ih h
        omega

namespace Run

variable {β ρ : Type} [Builder β ρ] {mode : Mode} {s : State} {run run' : Run β} {fuel : Nat}

/-- What the errors report are the lines that are left out. -/
theorem leavesOut_of_steps (hmild : Builder.Mild β) (hmode : mode.hidden = [])
    (hinv : InOrder s run) (hfuel : run.reader.pending.length < fuel) (hnone : run.errors = [])
    (hnodup : (run.reader.upcoming.map Token.number).Nodup)
    (h : run.steps mode fuel s = (run', none)) :
    LeavesOut (run'.errors.filterMap ParseError.leftOut?) (run.turns mode fuel s) := by
  obtain ⟨htaken, hleft⟩ := steps_leftOut hmild hmode hinv hfuel h
  rw [hnone, List.filterMap_nil, List.nil_append] at hleft
  rw [← htaken, List.map_map] at hnodup
  intro turn hturn
  rw [hleft, List.mem_map]
  constructor
  · rintro ⟨turn', hturn', hnumber⟩
    obtain ⟨hmem, hout⟩ := List.mem_filter.mp hturn'
    rwa [← List.inj_on_of_nodup_map hnodup hmem hturn hnumber]
  · intro hout
    exact ⟨turn, List.mem_filter.mpr ⟨hturn, hout⟩, rfl⟩

/-- A run that is given up with errors has one more than are tolerated. -/
def Full (x : Run β × Option Halt) : Prop :=
  ∀ es, x.2 = some (.errors es) → tolerance < es.length

theorem Full.andThen {x : Run β × Option Halt} {f : Run β → Run β × Option Halt} (hx : Full x)
    (hf : ∀ run, Full (f run)) : Full (andThen x f) := by
  obtain ⟨run, _ | halt⟩ := x
  · exact hf run
  · exact hx

section Collecting

variable (hstop : mode.stopAtFirst = false)
include hstop

theorem report_full (raised kept : ParseError) (run : Run β) :
    Full (run.report mode raised kept) := by
  intro es h
  rw [report, hstop, if_neg Bool.false_ne_true] at h
  split at h
  · cases h
  · next hlen =>
      cases h
      rw [List.length_append, List.length_singleton]
      omega

theorem reportAll_full (es : List (ParseError × ParseError)) (run : Run β) :
    Full (run.reportAll mode es) := by
  induction es generalizing run with
  | nil => exact fun _ h => nomatch h
  | cons e es ih =>
      rw [reportAll_cons]
      exact (report_full hstop _ _ _).andThen ih

theorem call_full (c : Call) (run : Run β) : Full (run.call mode c) := by
  rw [call]
  simp only []
  cases (Builder.receive c run.builder).2 with
  | none =>
      intro es h
      cases h
  | some r =>
      cases r with
      | error e => exact report_full hstop _ _ _
      | errors es =>
          rw [refuse, hstop, if_neg Bool.false_ne_true]
          exact reportAll_full hstop _ _
      | fault f =>
          intro es h
          cases h

theorem callAll_full (cs : List Call) (run : Run β) : Full (run.callAll mode cs) := by
  induction cs generalizing run with
  | nil => exact fun _ h => nomatch h
  | cons c cs ih =>
      rw [callAll_cons]
      exact (call_full hstop c run).andThen ih

theorem advance_full (s : State) (run : Run β) : Full (run.advance mode s).ended := by
  rw [ended_advance]
  refine (reportAll_full hstop _ _).andThen fun mid => ?_
  rw [settle]
  rcases (run.decision mode s).move with fault | (_ | a)
  · intro es h
    cases h
  · simp only []
    split
    · intro es h
      cases h
    · exact report_full hstop _ _ _
  · exact callAll_full hstop _ _

theorem steps_full (fuel : Nat) (s : State) (run : Run β) : Full (run.steps mode fuel s) := by
  induction fuel generalizing s run with
  | zero => exact fun _ h => nomatch h
  | succ fuel ih =>
      rw [steps_succ]
      refine (advance_full hstop s run).andThen fun next => ?_
      split
      · exact fun _ h => nomatch h
      · exact ih _ _

end Collecting

end Run

/-! ## Parses -/

theorem Recorder.mild {β ρ : Type} [Builder β ρ] (h : Builder.Mild β) :
    Builder.Mild (Recorder β) := fun c r => h c r.builder

namespace Parser

variable {β ρ : Type} [Builder β ρ]

/-- The errors that a parse has collected, if it has come to an end without a fault. -/
def errors? (parser : Parser β) (matcher : Matcher) (source : Text) : Option (List ParseError) :=
  match (parser.parse matcher source).outcome with
  | .ok _ => some []
  | .error (.errors es) => some es
  | .error _ => none

/-- The calls that a parse makes to its builder. -/
def calls (parser : Parser β) (matcher : Matcher) (source : Text) : List Call :=
  (parser.recording.parse matcher source).parser.builder.log.map Prod.fst

/-- The parse that has collected these errors is, but for the numbers of lines, the parse of the
source without the lines that the errors report as unexpected. -/
structure Recovers (parser : Parser β) (matcher : Matcher) (source : Text)
    (es : List ParseError) : Prop where
  calls : parser.calls matcher (Text.without (es.filterMap ParseError.leftOut?) source) =
    (parser.calls matcher source).map
      (Call.renumber (Text.numberWithout (es.filterMap ParseError.leftOut?)))
  errors : parser.errors? matcher (Text.without (es.filterMap ParseError.leftOut?) source) =
    some ((es.filter ParseError.stands).map
      (ParseError.renumber (Text.numberWithout (es.filterMap ParseError.leftOut?))))

variable {parser : Parser β} {matcher : Matcher} {source : Text} {es : List ParseError}
  {Holds : State → β → Prop} {Good : ρ → Prop}

/-- A parse that has collected few errors has not been given up before its end. -/
theorem ending_of_errors (hb : Builder.Sturdy Holds Good) (hstop : parser.stopAtFirst = false)
    (hes : es.length ≤ Run.tolerance) (h : parser.errors? matcher source = some es) :
    ∃ last closed, parser.recording.loop matcher source = (last, none) ∧
      last.call parser.mode (.closed .document) = (closed, none) ∧ closed.errors = es ∧
      (parser.recording.parse matcher source).parser.builder = closed.builder := by
  have hcomplete : (parser.recording.start matcher source).complete parser.recording.mode = _ :=
    complete_start (call_opened (hb.opened parser.builder).1)
  have hcollect : parser.recording.mode.stopAtFirst = false := hstop
  have hoverfull : ∀ {x : Run (Recorder β) × Option Halt} {halt : Halt}, Run.Full x →
      x.2 = some halt → (match (Except.error halt : Except Halt ρ) with
        | .ok _ => some []
        | .error (.errors es) => some es
        | .error _ => none) ≠ some es := by
    intro x halt hfull hhalt heq
    cases halt with
    | errors es' =>
        have hlen := hfull es' hhalt
        cases heq
        omega
    | error e => cases heq
    | fault f => cases heq
  rw [errors?, ← parse_recording, parse_eq, hcomplete] at h
  rw [parse_eq, hcomplete]
  rcases hloop : parser.recording.loop matcher source with ⟨last, _ | halt⟩
  · rw [hloop] at h
    simp only [ending] at h ⊢
    rcases hclose : last.call parser.recording.mode (.closed .document) with ⟨closed, _ | halt⟩
    · rw [hclose] at h
      refine ⟨last, closed, rfl, hclose, ?_, ?_⟩
      · cases herrors : closed.errors with
        | nil =>
            simp only [herrors, List.isEmpty_nil, if_true] at h
            cases hresult : Builder.result closed.builder with
            | ok r =>
                rw [hresult] at h
                cases h
                rfl
            | error f =>
                rw [hresult] at h
                cases h
        | cons e rest =>
            simp only [herrors, List.isEmpty_cons, Bool.false_eq_true, if_false] at h
            cases h
            rfl
      · simp only []
        split <;> rfl
    · rw [hclose] at h
      refine absurd h (hoverfull (Run.call_full hcollect (.closed .document) last) ?_)
      exact congrArg Prod.snd hclose
  · rw [hloop] at h
    refine absurd h (hoverfull (Run.steps_full hcollect ((Text.lines source).length + 1) .start
      (parser.recording.opening matcher source)) ?_)
    exact congrArg Prod.snd hloop

/-- What a parse comes to whose turns and whose closing are not given up. -/
theorem errors?_of_ending (hb : Builder.Sturdy Holds Good)
    (hresult : ∀ (b : β) f, Builder.result b = .error f → f ≠ .danglingEscape)
    {last closed : Run (Recorder β)}
    (hloop : parser.recording.loop matcher source = (last, none))
    (hclose : last.call parser.mode (.closed .document) = (closed, none)) :
    parser.errors? matcher source = some closed.errors ∧
      (parser.recording.parse matcher source).parser.builder = closed.builder := by
  have hcomplete : (parser.recording.start matcher source).complete parser.recording.mode =
      if closed.errors.isEmpty then (closed, none) else (closed, some (.errors closed.errors)) := by
    have hparts : (parser.recording.start matcher source).complete parser.recording.mode = _ :=
      complete_start (call_opened (hb.opened parser.builder).1)
    have hclose' : last.call parser.recording.mode (.closed .document) = (closed, none) := hclose
    rw [hparts, hloop]
    simp only [ending, hclose']
  have horderly : Orderly parser.stopAtFirst source Good (parser.parse matcher source).outcome :=
    parse_orderly hb
  rw [← parse_recording, parse_eq, hcomplete] at horderly
  rw [errors?, ← parse_recording, parse_eq, hcomplete]
  cases herrors : closed.errors with
  | nil =>
      simp only [herrors, List.isEmpty_nil, if_true] at horderly ⊢
      cases hr : Builder.result closed.builder with
      | ok r => exact ⟨rfl, trivial⟩
      | error f =>
          rw [hr] at horderly
          exact absurd horderly.1 (hresult closed.builder.builder f hr)
  | cons e rest =>
      simp only [List.isEmpty_cons, Bool.false_eq_true, if_false, and_self]

/-- The lines that are reported when a parse comes to the end of its input are those that its turns
leave out. The end of the input is not among them. -/
theorem leavesOut_of_loop (hmild : Builder.Mild β) (hmatcher : matcher.default ∈ Dialect.table)
    {last : Run β} (hloop : parser.loop matcher source = (last, none)) :
    Run.LeavesOut (last.errors.filterMap ParseError.leftOut?) (parser.turns matcher source) ∧
      ((0 : Nat) + (Text.lines source).length + 1 : Int) ∉
        last.errors.filterMap ParseError.leftOut? := by
  have hinv : Run.InOrder .start (parser.opening matcher source) := ⟨hmatcher, .inl rfl⟩
  have hupcoming : (parser.opening matcher source).reader.upcoming =
      Reader.fresh 0 (Text.lines source) := rfl
  refine ⟨Run.leavesOut_of_steps hmild rfl hinv (Nat.lt_succ_self _) rfl ?_ hloop, ?_⟩
  · rw [hupcoming, Reader.fresh_number]
    exact List.Nodup.map (fun _ _ => Int.ofNat.inj) List.nodup_range'
  · obtain ⟨htaken, hleft⟩ := Run.steps_leftOut hmild rfl hinv (Nat.lt_succ_self _) hloop
    rw [hleft]
    intro hmem
    obtain ⟨turn, hturn, hnumber⟩ := List.mem_map.mp hmem
    obtain ⟨hmem, hout⟩ := List.mem_filter.mp hturn
    have hfresh : turn.token.bare ∈ Reader.fresh 0 (Text.lines source) := by
      rw [← hupcoming, ← htaken]
      exact List.mem_map_of_mem hmem
    rw [Run.Turn.leavesOut, Bool.and_eq_true, Bool.not_eq_true'] at hout
    have hle := Reader.number_le_of_mem_fresh hfresh hout.1
    rw [Token.bare_number, hnumber] at hle
    omega

theorem recovers {move : (Int → Int) → β → β} (hmove : Builder.Follows move)
    (hmild : Builder.Mild β) (hb : Builder.Sturdy Holds Good)
    (hresult : ∀ (b : β) f, Builder.result b = .error f → f ≠ .danglingEscape)
    (hmatcher : matcher.default ∈ Dialect.table) (hstop : parser.stopAtFirst = false)
    (hes : es.length ≤ Run.tolerance) (h : parser.errors? matcher source = some es) :
    parser.Recovers matcher source es := by
  obtain ⟨last, closed, hloop, hclose, herrors, hbuilder⟩ := ending_of_errors hb hstop hes h
  have hfollows := Recorder.follows hmove
  have hmild' := Recorder.mild hmild
  have htrack : ∀ source, Run.OnTrack .start (parser.recording.opening matcher source) :=
    fun _ => ⟨⟨hmatcher, .inl rfl⟩, fun t ht => nomatch ht⟩
  -- Closing the document does not report any line.
  have hreported : last.errors.filterMap ParseError.leftOut? =
      es.filterMap ParseError.leftOut? := by
    have hnone := Run.feed_leftOut hmild' [.closed .document] last.builder
    rw [Builder.feed_cons_snd, Builder.feed_nil, List.append_nil] at hnone
    rw [← herrors, (Run.call_none hclose).errors, List.filterMap_append, hnone, List.append_nil]
  obtain ⟨hleaves, hend⟩ := leavesOut_of_loop hmild' hmatcher hloop
  rw [hreported] at hleaves hend
  generalize hgone : es.filterMap ParseError.leftOut? = gone at *
  have hopening : Run.Mirrors (Recorder.renumber move) (Text.numberWithout gone)
      (parser.recording.opening matcher source)
      (parser.recording.opening matcher (Text.without gone source)) := by
    refine ⟨rfl, ?_, rfl⟩
    have hopened := hfollows.receive (Text.numberWithout gone) (.opened .document)
      (Builder.reset parser.recording.builder)
    rw [hfollows.reset] at hopened
    exact congrArg Prod.fst hopened
  have hupcoming : (parser.recording.opening matcher (Text.without gone source)).reader.upcoming =
      (Token.remaining gone (parser.recording.opening matcher source).reader.upcoming).map
        (Token.renumber (Text.numberWithout gone)) := by
    have hfresh := Reader.fresh_remainingLines gone 0 (Text.lines source) hend
    rw [← Text.lines_without] at hfresh
    exact hfresh
  obtain ⟨last', hloop', hlast⟩ := Run.steps_mirrored hfollows hmild' rfl (htrack source)
    (htrack (Text.without gone source)) hopening hupcoming (Nat.lt_succ_self _)
    (Nat.lt_succ_self _) hleaves hloop
  have hcall : Run.Mirrored (Recorder.renumber move) (Text.numberWithout gone)
      (last.call parser.mode (.closed .document)) (last'.call parser.mode (.closed .document)) :=
    Run.call_mirrored hfollows hmild' hlast
  rw [hclose] at hcall
  obtain ⟨hnone, hclosed⟩ := hcall rfl
  obtain ⟨herrors', hbuilder'⟩ := errors?_of_ending hb hresult hloop' (Prod.ext rfl hnone)
  refine ⟨?_, ?_⟩
  · rw [hgone, calls, calls, hbuilder, hbuilder', hclosed.builder, Recorder.renumber, List.map_map,
      List.map_map]
    rfl
  · rw [hgone, herrors', hclosed.errors, herrors]

/-- Recovering from unexpected lines is leaving them out. Take a parse that collects errors and comes
to its end with fewer than eleven of them and no fault. Without the lines that are reported as
unexpected, the source is parsed with the same calls to the builder and with the other errors, all
with the numbers that the lines have then. -/
theorem recovery_leaves_lines_out (matcher : Matcher) (hmatcher : matcher.default ∈ Dialect.table)
    (source : Text) (builder : DocumentBuilder) (listing : Listing) (es : List ParseError)
    (hes : es.length < 11) :
    (Parser.errors? { builder } matcher source = some es →
      Parser.Recovers { builder } matcher source es) ∧
      (Parser.errors? { builder := listing } matcher source = some es →
        Parser.Recovers { builder := listing } matcher source es) := by
  refine ⟨recovers DocumentBuilder.follows DocumentBuilder.mild DocumentBuilder.sturdy ?_ hmatcher rfl
    (Nat.le_of_lt_succ hes), recovers Listing.follows Listing.mild Listing.sturdy ?_ hmatcher rfl
    (Nat.le_of_lt_succ hes)⟩
  · intro b f hf
    change b.result = .error f at hf
    unfold DocumentBuilder.result at hf
    split at hf
    · cases hf
      exact Fault.noConfusion
    · split at hf <;> cases hf
  · intro b f hf
    cases hf

/-- An outline with a stray line behind a step, and with another before its examples, which hides
them from the look ahead. -/
def interruptedOutline : Text :=
  "Feature:\nScenario Outline:\n* a\nstray\n|x|\n@t\n#\nstray\nExamples:\n|a|\n@u\n".toList

/-- The errors of a parse of the outline. -/
def interruptedOutlineErrors : List ParseError :=
  (Parser.errors? { builder := ({} : DocumentBuilder) } (.new .plain .english)
    interruptedOutline).getD []

/-- Four lines are left out, and the end of the input is unexpected with and without them. -/
theorem recovery_leaves_lines_out_interruptedOutline :
    Dialect.english ∈ Dialect.table ∧
      interruptedOutlineErrors.filterMap ParseError.leftOut? = [4, 8, 9, 10] ∧
      interruptedOutlineErrors.length = 5 ∧
      Parser.errors? { builder := ({} : DocumentBuilder) } (.new .plain .english)
        interruptedOutline = some interruptedOutlineErrors ∧
      Parser.errors? { builder := ({} : Listing) } (.new .plain .english) interruptedOutline =
        some interruptedOutlineErrors ∧
      Parser.Recovers { builder := ({} : DocumentBuilder) } (.new .plain .english)
        interruptedOutline interruptedOutlineErrors ∧
      Parser.Recovers { builder := ({} : Listing) } (.new .plain .english) interruptedOutline
        interruptedOutlineErrors := by
  have henglish : Dialect.english ∈ Dialect.table := by decide
  have hgone : interruptedOutlineErrors.filterMap ParseError.leftOut? = [4, 8, 9, 10] := by
    decide +kernel
  have hlength : interruptedOutlineErrors.length = 5 := by decide +kernel
  have hdocument : Parser.errors? { builder := ({} : DocumentBuilder) } (.new .plain .english)
      interruptedOutline = some interruptedOutlineErrors := by decide +kernel
  have hlisting : Parser.errors? { builder := ({} : Listing) } (.new .plain .english)
      interruptedOutline = some interruptedOutlineErrors := by decide +kernel
  have hboth := recovery_leaves_lines_out (.new .plain .english) henglish interruptedOutline {} {}
    interruptedOutlineErrors (by rw [hlength]; decide)
  exact ⟨henglish, hgone, hlength, hdocument, hlisting, hboth.1 hdocument, hboth.2 hlisting⟩

end Parser

end FeatureFile
