import FeatureFile.Listing
import FeatureFile.Proofs.Nodes
import FeatureFile.Proofs.Recording
import FeatureFile.Proofs.Sequence

/-!
# Stopping at the first error

A parser either raises the first error it meets or collects errors and raises them together. The
two ways are different code wherever an error can arise: at a language header that is refused, at a
token without a move, at a call that the builder refuses. They agree all the same, and the argument
is one simulation up to the first error. As long as there is none the two runs are in the same
situation and do the same (`Parallel.same`). At the first error the stopping run is over, and the
collecting run has that error at the head of its list, where it stays until the run ends in whatever
way (`Parallel.parted`).

Both halves of the simulation pass through `Run.andThen`, and so they are carried along a run part by
part.

The two records of an error need not be equal: the header of an unsupported language is reported
where it stands by the stopping run, and where it is read once more by the collecting one. Its cause
and its message are the same (`ParseError.Alike`).
-/

namespace FeatureFile

/-- Two errors of the same cause with the same message. They may point at different places. -/
def ParseError.Alike (e e' : ParseError) : Prop := e.cause = e'.cause ∧ e.message = e'.message

/-- A builder that refuses a call with one error at a time, or with a fault. -/
def Builder.Plain (β : Type) {ρ : Type} [Builder β ρ] : Prop :=
  ∀ c (b : β) es, (receive c b).2 ≠ some (.errors es)

theorem DocumentBuilder.plain : Builder.Plain DocumentBuilder := by
  intro c b es h
  rcases refused_uneven h with ⟨f, hf⟩ | ⟨_, _, ts, e, _, _, he⟩
  · cases hf
  · cases he

theorem Listing.plain : Builder.Plain Listing := by
  intro c l es h
  cases c <;> cases h

namespace Run

variable {β ρ : Type} {hidden : List TokenKind} {run : Run β} {e : ParseError}

/-! ## Behind the first error -/

/-- The way of a run that collects errors. -/
abbrev collecting (hidden : List TokenKind) : Mode := { stopAtFirst := false, hidden }

/-- The way of a run that stops at the first error. -/
abbrev stopping (hidden : List TokenKind) : Mode := { stopAtFirst := true, hidden }

/-- A run that collects errors has come to this point, or to this end, with an error like `e` at the
head of its list. A fault ends a run whatever has been collected. -/
def Led (e : ParseError) : Run β × Option Halt → Prop
  | (run, none) => ∃ e' ∈ run.errors.head?, e.Alike e'
  | (_, some (.errors es)) => ∃ e' ∈ es.head?, e.Alike e'
  | (_, some (.error _)) => False
  | (_, some (.fault _)) => True

theorem Led.andThen {x : Run β × Option Halt} {f : Run β → Run β × Option Halt} (h : Led e x)
    (hf : ∀ run, Led e (run, none) → Led e (f run)) : Led e (Run.andThen x f) := by
  obtain ⟨run, _ | halt⟩ := x
  · exact hf run h
  · exact h

theorem Led.report {raised kept : ParseError} (h : Led e (run, none)) :
    Led e (run.report (collecting hidden) raised kept) := by
  obtain ⟨e', he', halike⟩ := h
  have hhead : ∀ es, (run.errors ++ es).head? = some e' := by
    intro es
    rw [List.head?_append, Option.mem_def.mp he']
    rfl
  simp only [Run.report, Bool.false_eq_true, if_false]
  split <;> exact ⟨e', hhead _, halike⟩

theorem Led.reportAll {es : List (ParseError × ParseError)} (h : Led e (run, none)) :
    Led e (run.reportAll (collecting hidden) es) := by
  induction es generalizing run with
  | nil => exact h
  | cons first es ih =>
      rw [reportAll_cons]
      exact h.report.andThen fun _ hmid => ih hmid

theorem Led.refuse {o : Option Refusal} (h : Led e (run, none)) :
    Led e (run.refuse (collecting hidden) o) := by
  match o with
  | none => exact h
  | some (.error _) => exact h.report
  | some (.errors _) => exact h.reportAll
  | some (.fault _) => trivial

variable [Builder β ρ]

theorem Led.call {c : Call} (h : Led e (run, none)) : Led e (run.call (collecting hidden) c) := by
  have hled : Led e ({ run with builder := (Builder.receive c run.builder).1 }, none) := h
  exact hled.refuse

theorem Led.callAll {cs : List Call} (h : Led e (run, none)) :
    Led e (run.callAll (collecting hidden) cs) := by
  induction cs generalizing run with
  | nil => exact h
  | cons c cs ih =>
      rw [callAll_cons]
      exact h.call.andThen fun _ hmid => ih hmid

theorem Led.settle {s : State} {trial : Trial} (h : Led e (run, none)) :
    Led e (run.settle (collecting hidden) s trial) := by
  unfold Run.settle
  split
  · trivial
  · split
    · trivial
    · exact h.report
  · exact h.callAll

theorem Led.advance {s : State} (h : Led e (run, none)) :
    Led e (run.advance (collecting hidden) s).ended := by
  rw [ended_advance]
  have hheader : Led e ({ run with
      matcher := (run.decision (collecting hidden) s).matcher
      reader := (run.decision (collecting hidden) s).reader }, none) := h
  exact hheader.reportAll.andThen fun _ hmid => hmid.settle

theorem Led.steps {fuel : Nat} {s : State} (h : Led e (run, none)) :
    Led e (run.steps (collecting hidden) fuel s) := by
  induction fuel generalizing run s with
  | zero => exact h
  | succ fuel ih =>
      rw [steps_succ]
      refine h.advance.andThen fun _ hnext => ?_
      split
      · exact hnext
      · exact ih hnext

/-! ## Up to the first error -/

omit [Builder β ρ]

/-- How a stopping and a collecting run compare that started from the same point without errors. -/
inductive Parallel (x y : Run β × Option Halt) : Prop where
  /-- There has been no error, and they are still the same; a fault may have ended both. -/
  | same (h : x = y) (hquiet : y.1.errors = [])
      (hfault : ∀ halt, y.2 = some halt → ∃ f, halt = .fault f)
  /-- There has been an error. -/
  | parted (e : ParseError) (hx : x.2 = some (.error e)) (hy : Led e y)

theorem Parallel.refl (hquiet : run.errors = []) : Parallel (run, none) (run, none) :=
  .same rfl hquiet fun _ hhalt => nomatch hhalt

theorem Parallel.fault (hquiet : run.errors = []) (f : Fault) :
    Parallel (run, some (.fault f)) (run, some (.fault f)) :=
  .same rfl hquiet fun _ hhalt => ⟨f, (Option.some.inj hhalt).symm⟩

theorem Parallel.andThen {x y : Run β × Option Halt} {f g : Run β → Run β × Option Halt}
    (h : Parallel x y) (hsame : ∀ run, run.errors = [] → Parallel (f run) (g run))
    (hled : ∀ e run, Led e (run, none) → Led e (g run)) :
    Parallel (Run.andThen x f) (Run.andThen y g) := by
  cases h with
  | same h hquiet hfault =>
      subst h
      obtain ⟨run, _ | halt⟩ := x
      · exact hsame run hquiet
      · exact .same rfl hquiet hfault
  | parted e hx hy =>
      obtain ⟨run, halt⟩ := x
      cases hx
      exact .parted e rfl (hy.andThen (hled e))

theorem report_parallel {raised kept : ParseError} (hquiet : run.errors = [])
    (halike : raised.Alike kept) :
    Parallel (run.report (stopping hidden) raised kept)
      (run.report (collecting hidden) raised kept) := by
  refine .parted raised rfl ?_
  simp only [report, Bool.false_eq_true, if_false, hquiet]
  exact ⟨kept, rfl, halike⟩

theorem reportAll_parallel {es : List (ParseError × ParseError)} (hquiet : run.errors = [])
    (halike : ∀ e ∈ es, e.1.Alike e.2) :
    Parallel (run.reportAll (stopping hidden) es) (run.reportAll (collecting hidden) es) := by
  induction es generalizing run with
  | nil => exact .refl hquiet
  | cons first es ih =>
      rw [reportAll_cons, reportAll_cons]
      refine (report_parallel hquiet (halike first List.mem_cons_self)).andThen ?_ ?_
      · intro mid hmid
        exact ih hmid fun e he => halike e (List.mem_cons_of_mem _ he)
      · exact fun _ _ hmid => hmid.reportAll

theorem refusals_alike (trial : Trial) : ∀ e ∈ refusals trial, e.1.Alike e.2 := by
  intro e he
  obtain ⟨header, _, rfl⟩ := List.mem_map.mp he
  exact ⟨rfl, rfl⟩

theorem refuse_parallel {o : Option Refusal} (hquiet : run.errors = [])
    (hplain : ∀ es, o ≠ some (.errors es)) :
    Parallel (run.refuse (stopping hidden) o) (run.refuse (collecting hidden) o) := by
  match o with
  | none => exact .refl hquiet
  | some (.error e) => exact report_parallel hquiet ⟨rfl, rfl⟩
  | some (.errors es) => exact absurd rfl (hplain es)
  | some (.fault f) => exact .fault hquiet f

variable [Builder β ρ] (hplain : Builder.Plain β)
include hplain

theorem call_parallel {c : Call} (hquiet : run.errors = []) :
    Parallel (run.call (stopping hidden) c) (run.call (collecting hidden) c) := by
  have hnone : { run with builder := (Builder.receive c run.builder).1 }.errors = [] := hquiet
  exact refuse_parallel hnone (hplain c run.builder)

theorem callAll_parallel {cs : List Call} (hquiet : run.errors = []) :
    Parallel (run.callAll (stopping hidden) cs) (run.callAll (collecting hidden) cs) := by
  induction cs generalizing run with
  | nil => exact .refl hquiet
  | cons c cs ih =>
      rw [callAll_cons, callAll_cons]
      exact (call_parallel hplain hquiet).andThen (fun _ hmid => ih hmid)
        fun _ _ hmid => hmid.callAll

theorem settle_parallel {s : State} {trial : Trial} (hquiet : run.errors = []) :
    Parallel (run.settle (stopping hidden) s trial) (run.settle (collecting hidden) s trial) := by
  unfold settle
  split
  · exact .fault hquiet _
  · split
    · exact .fault hquiet _
    · exact report_parallel hquiet ⟨rfl, rfl⟩
  · exact callAll_parallel hplain hquiet

theorem advance_parallel {s : State} (hquiet : run.errors = []) :
    Parallel (run.advance (stopping hidden) s).ended (run.advance (collecting hidden) s).ended := by
  -- What a state decides does not depend on the way errors are treated.
  have hdecision : run.decision (stopping hidden) s = run.decision (collecting hidden) s := rfl
  rw [ended_advance, ended_advance, hdecision]
  refine (reportAll_parallel ?_ (refusals_alike _)).andThen ?_ ?_
  · exact hquiet
  · exact fun _ hmid => settle_parallel hplain hmid
  · exact fun _ _ hmid => hmid.settle

theorem steps_parallel {fuel : Nat} {s : State} (hquiet : run.errors = []) :
    Parallel (run.steps (stopping hidden) fuel s) (run.steps (collecting hidden) fuel s) := by
  induction fuel generalizing run s with
  | zero => exact .refl hquiet
  | succ fuel ih =>
      have hdecision : run.decision (stopping hidden) s = run.decision (collecting hidden) s := rfl
      rw [steps_succ, steps_succ, hdecision]
      refine (advance_parallel hplain hquiet).andThen ?_ ?_
      · intro next hnext
        split
        · exact .refl hnext
        · exact ih hnext
      · intro e next hnext
        split
        · exact hnext
        · exact hnext.steps

theorem complete_parallel (hquiet : run.errors = []) :
    Parallel (run.complete (stopping hidden)) (run.complete (collecting hidden)) := by
  have hclose : ∀ e (last : Run β), Led e (last, none) →
      Led e (Run.andThen (last.call (collecting hidden) (.closed .document)) fun closed =>
        if closed.errors.isEmpty then (closed, none)
        else (closed, some (.errors closed.errors))) := by
    intro e last hlast
    refine hlast.call.andThen fun closed hclosed => ?_
    split <;> exact hclosed
  rw [complete_eq, complete_eq]
  refine (call_parallel hplain hquiet).andThen ?_ ?_
  · intro first hfirst
    refine (steps_parallel hplain hfirst).andThen ?_ hclose
    intro last hlast
    refine (call_parallel hplain hlast).andThen ?_ ?_
    · intro closed hclosed
      rw [hclosed]
      exact .refl hclosed
    · intro e closed hclosed
      split <;> exact hclosed
  · exact fun e first hfirst => hfirst.steps.andThen (hclose e)

end Run

/-! ## Parses -/

/-- How the outcomes of a stopping and of a collecting parse of one source are related. -/
structure Agree {ρ : Type} (stopping collecting : Except Halt ρ) : Prop where
  result : ∀ r, collecting = .ok r ↔ stopping = .ok r
  first : ∀ es, collecting = .error (.errors es) →
    ∃ e ∈ es.head?, ∃ e', stopping = .error (.error e') ∧ e'.Alike e
  later : ∀ e, stopping = .error (.error e) →
    (∃ es, collecting = .error (.errors es) ∧ ∃ e' ∈ es.head?, e.Alike e') ∨
      ∃ f, collecting = .error (.fault f)

theorem Agree.refl_of_faults {ρ : Type} {x : Except Halt ρ}
    (h : ∀ halt, x = .error halt → ∃ f, halt = .fault f) : Agree x x where
  result _ := Iff.rfl
  first es hx := by
    obtain ⟨f, hf⟩ := h _ hx
    cases hf
  later e hx := by
    obtain ⟨f, hf⟩ := h _ hx
    cases hf

/-- What a parse makes of its run. -/
def Parser.outcomeOf {β ρ : Type} [Builder β ρ] : Run β × Option Halt → Except Halt ρ
  | (_, some halt) => .error halt
  | (run, none) => (Builder.result run.builder).mapError Halt.fault

theorem Run.Parallel.agree {β ρ : Type} [Builder β ρ] {x y : Run β × Option Halt}
    (h : Parallel x y) (hnone : y.2 = none → y.1.errors = []) :
    Agree (Parser.outcomeOf x) (Parser.outcomeOf y) := by
  cases h with
  | same h hquiet hfault =>
      subst h
      refine .refl_of_faults fun halt hhalt => ?_
      obtain ⟨run, _ | halt'⟩ := x
      · simp only [Parser.outcomeOf] at hhalt
        cases hresult : Builder.result run.builder with
        | ok r => rw [hresult] at hhalt; cases hhalt
        | error f => rw [hresult] at hhalt; cases hhalt; exact ⟨f, rfl⟩
      · cases hhalt
        exact hfault _ rfl
  | parted e hx hy =>
      obtain ⟨run, halt⟩ := x
      cases hx
      match y with
      | (run', none) =>
          -- A run to the end has collected nothing.
          obtain ⟨e', he', _⟩ := hy
          rw [hnone rfl] at he'
          cases he'
      | (run', some (.error _)) => exact hy.elim
      | (run', some (.fault f)) =>
          exact
            { result := fun r => iff_of_false (fun h => nomatch h) fun h => nomatch h
              first := fun es hes => by cases hes
              later := fun _ _ => .inr ⟨f, rfl⟩ }
      | (run', some (.errors es)) =>
          obtain ⟨e', he', halike⟩ := hy
          exact
            { result := fun r => iff_of_false (fun h => nomatch h) fun h => nomatch h
              first := fun es' hes => by cases hes; exact ⟨e', he', e, rfl, halike⟩
              later := fun _ he => by cases he; exact .inl ⟨es, rfl, e', he', halike⟩ }

namespace Parser

theorem outcomes_agree {β ρ : Type} [Builder β ρ] (hplain : Builder.Plain β) (builder : β)
    (matcher : Matcher) (source : Text) :
    Agree (Parser.parse { builder, stopAtFirst := true } matcher source).outcome
      (Parser.parse { builder, stopAtFirst := false } matcher source).outcome := by
  have hparallel : Run.Parallel
      ((Parser.start { builder, stopAtFirst := true } matcher source).complete (Run.stopping []))
      ((Parser.start { builder, stopAtFirst := false } matcher source).complete
        (Run.collecting [])) := Run.complete_parallel hplain rfl
  rw [parse_eq, parse_eq]
  refine hparallel.agree fun hnone => ?_
  obtain ⟨_, _, _, _, _, hquiet⟩ := Run.complete_none (Prod.ext rfl hnone)
  exact hquiet

/-- Stopping at the first error and collecting errors agree, whatever the source, the matcher and
the builder. The one parse comes to a result if and only if the other does, and then to the same. If
the collecting parse raises errors, the stopping one raises the first of them; and what the stopping
parse raises is the first error of the collecting one, unless that ends with a fault. -/
theorem stopping_agrees_with_collecting (matcher : Matcher) (source : Text)
    (builder : DocumentBuilder) (listing : Listing) :
    Agree (Parser.parse { builder, stopAtFirst := true } matcher source).outcome
        (Parser.parse { builder, stopAtFirst := false } matcher source).outcome ∧
      Agree (Parser.parse { builder := listing, stopAtFirst := true } matcher source).outcome
        (Parser.parse { builder := listing, stopAtFirst := false } matcher source).outcome :=
  ⟨outcomes_agree DocumentBuilder.plain builder matcher source,
    outcomes_agree Listing.plain listing matcher source⟩

/-- A header that is not supported, and a line that fits nowhere. -/
example :
    let source := "  #language:xx\nFeature: f\nScenario: s\n* a\nb\n".toList
    let header (column : Int) : ParseError :=
      { cause := .unsupportedLanguage "xx".toList, stamp := ⟨1, some 3⟩, place := ⟨1, some column⟩ }
    let line := ParseError.placed ⟨5, some 1⟩
      (.unexpectedToken (ParseError.expectedNames (State.step .scenario).expected) "b".toList)
    (parse { builder := ({} : DocumentBuilder), stopAtFirst := true } (.new .plain .english)
        source).outcome = .error (.error (header 3)) ∧
      (parse { builder := ({} : DocumentBuilder), stopAtFirst := false } (.new .plain .english)
        source).outcome = .error (.errors [header 1, line]) := by
  decide +kernel

end Parser

end FeatureFile
