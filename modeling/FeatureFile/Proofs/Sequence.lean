import FeatureFile.Proofs.Turns

/-!
# A run, part by part

Everything in a run that can report an error is put together from smaller parts in one way: it goes
on unless the run has been given up. `Run.andThen` is that way of going on, and the equations below
say it of every part: reporting, calling, a step, all steps, and the run as a whole. A property of
runs that passes through `andThen` then needs one line for each part.
-/

namespace FeatureFile

namespace Run

variable {β ρ : Type} {mode : Mode} {run : Run β}

/-- Goes on unless the run has been given up. -/
def andThen (x : Run β × Option Halt) (f : Run β → Run β × Option Halt) : Run β × Option Halt :=
  match x with
  | (run, some halt) => (run, some halt)
  | (run, none) => f run

theorem reportAll_cons (first : ParseError × ParseError) (es : List (ParseError × ParseError)) :
    run.reportAll mode (first :: es) =
      andThen (run.report mode first.1 first.2) (reportAll mode es) := rfl

/-- A step as a run that may have been given up. -/
def Step.ended (o : Step β) : Run β × Option Halt :=
  (o.run, match o.next with
    | .error halt => some halt
    | .ok _ => none)

theorem Step.of_ended {o : Step β} {next : Run β} (h : o.ended = (next, none)) :
    ∃ s', o.next = .ok s' ∧ o.run = next := by
  obtain ⟨hrun, hnext⟩ := Prod.ext_iff.mp h
  rw [Step.ended] at hnext
  cases hs : o.next with
  | error halt =>
      rw [hs] at hnext
      cases hnext
  | ok s' => exact ⟨s', rfl, hrun⟩

variable [Builder β ρ]

theorem callAll_cons (c : Call) (cs : List Call) :
    run.callAll mode (c :: cs) = andThen (run.call mode c) (callAll mode cs) := rfl

/-- What a state does once it has decided. -/
def settle (mode : Mode) (s : State) (trial : Trial) (run : Run β) : Run β × Option Halt :=
  match trial.move with
  | .error fault => (run, some (.fault fault))
  | .ok none =>
    if s = .finished then (run, some (.fault (.unknownState s.number)))
    else run.report mode (.unexpected trial.token s.expected) (.unexpected trial.token s.expected)
  | .ok (some move) => run.callAll mode (callsOf move trial.token)

/-- The state that a decision leads to. -/
def target (s : State) (trial : Trial) : State :=
  match trial.move with
  | .ok (some move) => move.next
  | _ => s

theorem ended_advance (mode : Mode) (s : State) (run : Run β) :
    (run.advance mode s).ended =
      andThen ({ run with
        matcher := (run.decision mode s).matcher
        reader := (run.decision mode s).reader }.reportAll mode (refusals (run.decision mode s)))
        (settle mode s (run.decision mode s)) := by
  rw [advance_eq]
  generalize run.decision mode s = trial
  rcases reportAll mode (refusals trial)
    { run with matcher := trial.matcher, reader := trial.reader } with ⟨mid, _ | halt⟩
  · simp only [andThen, settle]
    rcases trial.move with fault | (_ | move)
    · rfl
    · simp only []
      split
      · rfl
      · rcases mid.report mode (.unexpected trial.token s.expected)
          (.unexpected trial.token s.expected) with ⟨last, _ | halt⟩ <;> rfl
    · simp only []
      rcases mid.callAll mode (callsOf move trial.token) with ⟨last, _ | halt⟩ <;> rfl
  · rfl

theorem next_eq_target {s s' : State} (h : (run.advance mode s).next = .ok s') :
    s' = target s (run.decision mode s) := by
  rw [advance_eq] at h
  generalize run.decision mode s = trial at h ⊢
  split at h
  · cases h
  · split at h
    · cases h
    · next hmove =>
        split at h
        · cases h
        · split at h <;> cases h
          rw [target, hmove]
    · next move hmove =>
        split at h <;> cases h
        rw [target, hmove]

theorem steps_succ (fuel : Nat) (s : State) (run : Run β) :
    run.steps mode (fuel + 1) s =
      andThen (run.advance mode s).ended fun next =>
        if run.reader.next.1.isEnd then (next, none)
        else next.steps mode fuel (target s (run.decision mode s)) := by
  rw [steps, Step.ended]
  cases hnext : (run.advance mode s).next with
  | error halt => rfl
  | ok next =>
      simp only [andThen]
      rw [(advance_goes hnext).isEnd, next_eq_target hnext]

theorem complete_eq (run : Run β) :
    run.complete mode =
      andThen (run.call mode (.opened .document)) fun first =>
        andThen (first.steps mode (first.reader.size + 1) .start) fun last =>
          andThen (last.call mode (.closed .document)) fun closed =>
            if closed.errors.isEmpty then (closed, none)
            else (closed, some (.errors closed.errors)) := rfl

end Run

end FeatureFile
