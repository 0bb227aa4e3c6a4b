import FeatureFile.Run

/-!
# Calls, refusals and errors

A builder takes a call, moves on, and may refuse it on the way. `Builder.feed` is what remains of
a list of calls when nobody answers the refusals: the builder behind all of them and the refusals
in order. `Run.callAll` answers each refusal as it comes, by collecting an error or by giving up,
and the lemmas below say that this makes no difference to the builder: as long as the run goes on,
its builder is the fed one and its errors are those of the refusals.

Giving up is of one kind only, as long as the refusals are errors: one error raised at once, or the
collected errors together, one more than are tolerated.
-/

namespace FeatureFile

namespace Builder

variable {β ρ : Type} [Builder β ρ]

/-- The builder behind a list of calls, and the calls it refused. -/
def feed : List Call → β → β × List Refusal
  | [], b => (b, [])
  | c :: cs, b =>
    let rest := feed cs (receive c b).1
    (rest.1, (receive c b).2.toList ++ rest.2)

@[simp] theorem feed_nil (b : β) : feed [] b = (b, []) := rfl

theorem feed_cons_fst (c : Call) (cs : List Call) (b : β) :
    (feed (c :: cs) b).1 = (feed cs (receive c b).1).1 := rfl

theorem feed_cons_snd (c : Call) (cs : List Call) (b : β) :
    (feed (c :: cs) b).2 = (receive c b).2.toList ++ (feed cs (receive c b).1).2 := rfl

theorem feed_append (cs ds : List Call) (b : β) :
    feed (cs ++ ds) b =
      ((feed ds (feed cs b).1).1, (feed cs b).2 ++ (feed ds (feed cs b).1).2) := by
  induction cs generalizing b with
  | nil => rfl
  | cons c cs ih =>
      rw [List.cons_append]
      refine Prod.ext ?_ ?_
      · rw [feed_cons_fst, ih, feed_cons_fst]
      · rw [feed_cons_snd, ih, feed_cons_snd, feed_cons_fst, List.append_assoc]

end Builder

/-- The errors that a refusal stands for. -/
def Refusal.toErrors : Refusal → List ParseError
  | .error e => [e]
  | .errors es => es
  | .fault _ => []

/-- A refusal that is one error. -/
def Refusal.IsError : Refusal → Prop
  | .error _ => True
  | _ => False

/-- How a run may be given up: with one error if it stops at the first, and else with all errors,
of which there are some, but not many. -/
def Halt.Proper (mode : Mode) : Halt → Prop
  | .error _ => mode.stopAtFirst = true
  | .errors es =>
    mode.stopAtFirst = false ∧ 1 ≤ es.length ∧ es.length ≤ Run.tolerance + 1
  | .fault _ => False

namespace Run

variable {β ρ : Type} {mode : Mode} {run mid run' : Run β} {halt : Halt}

/-- A run that has gone on: its builder is now `b`, the errors `es` have been collected, and nothing
else has changed. Only a run that collects errors goes on behind one. -/
structure Grows (mode : Mode) (run run' : Run β) (b : β) (es : List ParseError) : Prop where
  reader : run'.reader = run.reader
  matcher : run'.matcher = run.matcher
  builder : run'.builder = b
  errors : run'.errors = run.errors ++ es
  tolerated : es = [] ∨ (mode.stopAtFirst = false ∧ run'.errors.length ≤ tolerance)

theorem Grows.trans {b c : β} {es fs : List ParseError} (h : Grows mode run mid b es)
    (h' : Grows mode mid run' c fs) : Grows mode run run' c (es ++ fs) := by
  refine ⟨h'.reader.trans h.reader, h'.matcher.trans h.matcher, h'.builder, ?_, ?_⟩
  · rw [h'.errors, h.errors, List.append_assoc]
  · rcases h'.tolerated with rfl | hfs
    · rcases h.tolerated with rfl | ⟨hstop, hlen⟩
      · exact .inl rfl
      · refine .inr ⟨hstop, ?_⟩
        rw [h'.errors, List.append_nil]
        exact hlen
    · exact .inr hfs

theorem Grows.length_le {b : β} {es : List ParseError} (h : Grows mode run run' b es)
    (hlen : run.errors.length ≤ tolerance) : run'.errors.length ≤ tolerance := by
  rcases h.tolerated with rfl | ⟨_, hlen'⟩
  · rw [h.errors, List.append_nil]
    exact hlen
  · exact hlen'

/-! ## Reporting -/

theorem report_none {raised kept : ParseError} (h : run.report mode raised kept = (run', none)) :
    Grows mode run run' run.builder [kept] := by
  unfold report at h
  split at h
  · cases h
  · rename_i hstop
    split at h
    · rename_i hlen
      cases h
      refine ⟨rfl, rfl, rfl, rfl, .inr ⟨by simpa using hstop, ?_⟩⟩
      rw [List.length_append, List.length_singleton]
      omega
    · cases h

theorem report_some {raised kept : ParseError} (hlen : run.errors.length ≤ tolerance)
    (h : run.report mode raised kept = (run', some halt)) : halt.Proper mode := by
  unfold report at h
  split at h
  · rename_i hstop
    cases h
    exact hstop
  · rename_i hstop
    split at h
    · cases h
    · cases h
      refine ⟨by simpa using hstop, ?_, ?_⟩ <;>
        rw [List.length_append, List.length_singleton] <;> omega

theorem reportAll_none {es : List (ParseError × ParseError)}
    (h : run.reportAll mode es = (run', none)) :
    Grows mode run run' run.builder (es.map Prod.snd) := by
  induction es generalizing run with
  | nil =>
      cases h
      exact ⟨rfl, rfl, rfl, (List.append_nil _).symm, .inl rfl⟩
  | cons e es ih =>
      obtain ⟨raised, kept⟩ := e
      rw [reportAll] at h
      split at h
      · cases h
      · rename_i mid hreport
        have hfirst := report_none hreport
        have hrest := ih h
        rw [hfirst.builder] at hrest
        exact hfirst.trans hrest

theorem reportAll_some {es : List (ParseError × ParseError)}
    (hlen : run.errors.length ≤ tolerance) (h : run.reportAll mode es = (run', some halt)) :
    halt.Proper mode := by
  induction es generalizing run with
  | nil => cases h
  | cons e es ih =>
      obtain ⟨raised, kept⟩ := e
      rw [reportAll] at h
      split at h
      · rename_i mid halt' hreport
        cases h
        exact report_some hlen hreport
      · rename_i mid hreport
        exact ih ((report_none hreport).length_le hlen) h

/-! ## Calling -/

theorem refuse_none {o : Option Refusal} (h : run.refuse mode o = (run', none)) :
    Grows mode run run' run.builder (o.toList.flatMap Refusal.toErrors) := by
  match o with
  | none =>
      cases h
      exact ⟨rfl, rfl, rfl, (List.append_nil _).symm, .inl rfl⟩
  | some (.error e) => exact report_none h
  | some (.errors es) =>
      rw [refuse] at h
      split at h
      · cases h
      · have hall := reportAll_none h
        rw [List.map_map] at hall
        simpa [Refusal.toErrors, Function.comp_def] using hall
  | some (.fault f) => cases h

theorem refuse_some {o : Option Refusal} (hlen : run.errors.length ≤ tolerance)
    (hplain : ∀ r, o = some r → r.IsError) (h : run.refuse mode o = (run', some halt)) :
    halt.Proper mode := by
  match o with
  | none => cases h
  | some (.error e) => exact report_some hlen h
  | some (.errors es) => exact absurd (hplain _ rfl) id
  | some (.fault f) => exact absurd (hplain _ rfl) id

variable [Builder β ρ]

theorem call_of_receive {c : Call} (h : (Builder.receive c run.builder).2 = none) :
    run.call mode c = ({ run with builder := (Builder.receive c run.builder).1 }, none) := by
  rw [call]
  simp only [h]
  rfl

theorem call_none {c : Call} (h : run.call mode c = (run', none)) :
    Grows mode run run' (Builder.receive c run.builder).1
      ((Builder.receive c run.builder).2.toList.flatMap Refusal.toErrors) := by
  have hgrows := refuse_none h
  exact ⟨hgrows.reader, hgrows.matcher, hgrows.builder, hgrows.errors, hgrows.tolerated⟩

/-- No error is taken back. -/
theorem errors_of_call {c : Call} (h : run.call mode c = (run', none)) (hnil : run'.errors = []) :
    run.errors = [] := by
  have hgrows := (call_none h).errors
  rw [hnil] at hgrows
  exact (List.append_eq_nil_iff.mp hgrows.symm).1

theorem call_some {c : Call} (hlen : run.errors.length ≤ tolerance)
    (hplain : ∀ r, (Builder.receive c run.builder).2 = some r → r.IsError)
    (h : run.call mode c = (run', some halt)) : halt.Proper mode := by
  have hlen' : { run with builder := (Builder.receive c run.builder).1 }.errors.length ≤
      tolerance := hlen
  exact refuse_some hlen' hplain h

/-- As long as a run goes on, its builder is the one that was fed with all the calls, and its errors
are those of the refusals. -/
theorem callAll_none {cs : List Call} (h : run.callAll mode cs = (run', none)) :
    Grows mode run run' (Builder.feed cs run.builder).1
      ((Builder.feed cs run.builder).2.flatMap Refusal.toErrors) := by
  induction cs generalizing run with
  | nil =>
      cases h
      exact ⟨rfl, rfl, rfl, (List.append_nil _).symm, .inl rfl⟩
  | cons c cs ih =>
      rw [callAll] at h
      split at h
      · cases h
      · rename_i mid hcall
        have hfirst := call_none hcall
        have hrest := ih h
        rw [hfirst.builder] at hrest
        rw [Builder.feed_cons_fst, Builder.feed_cons_snd, List.flatMap_append]
        exact hfirst.trans hrest

theorem callAll_of_feed {cs : List Call} (h : (Builder.feed cs run.builder).2 = []) :
    run.callAll mode cs = ({ run with builder := (Builder.feed cs run.builder).1 }, none) := by
  induction cs generalizing run with
  | nil => rfl
  | cons c cs ih =>
      rw [Builder.feed_cons_snd] at h
      obtain ⟨hfirst, hrest⟩ := List.append_eq_nil_iff.mp h
      rw [callAll, call_of_receive (Option.toList_eq_nil_iff.mp hfirst)]
      exact ih hrest

theorem callAll_some {cs : List Call} (hlen : run.errors.length ≤ tolerance)
    (hplain : ∀ r ∈ (Builder.feed cs run.builder).2, r.IsError)
    (h : run.callAll mode cs = (run', some halt)) : halt.Proper mode := by
  induction cs generalizing run with
  | nil => cases h
  | cons c cs ih =>
      rw [Builder.feed_cons_snd] at hplain
      rw [callAll] at h
      split at h
      · rename_i mid halt' hcall
        cases h
        refine call_some hlen (fun r hr => hplain r (List.mem_append_left _ ?_)) hcall
        rw [hr]
        exact List.mem_singleton_self r
      · rename_i mid hcall
        have hfirst := call_none hcall
        refine ih (hfirst.length_le hlen) ?_ h
        rw [hfirst.builder]
        exact fun r hr => hplain r (List.mem_append_right _ hr)

end Run

end FeatureFile
