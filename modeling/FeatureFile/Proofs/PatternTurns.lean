import Mathlib.Data.List.Infix
import FeatureFile.Pattern.Match

/-!
# Repetitions are matched to the end

The turns of a repetition count down from a bound that depends on the length of the text behind. It
keeps a repetition from no turn: with any larger bound it matches the same (`run_repetition`).

What follows a pattern is given as a continuation, so it has to be said where the continuation is
asked. `Forward` says that a way to match asks it at places that are not further back, and
`run_forward` that patterns match in such a way. A turn that may be made is not made behind one that
has matched nothing, so each of them moves on or is the last one (`turnsLeft_more`).
-/

namespace FeatureFile

namespace Pattern

/-- A way to match asks what has to follow at places that are not further back, and finds nothing
that does not follow from there. -/
structure Forward (body : Cursor → Continuation → Option Cursor) : Prop where
  congr : ∀ {c k k'}, (∀ d : Cursor, d.rest.length ≤ c.rest.length → k d = k' d) →
    body c k = body c k'
  found : ∀ {c k e}, body c k = some e → ∃ d : Cursor, d.rest.length ≤ c.rest.length ∧ k d = some e

namespace Forward

variable {body : Cursor → Continuation → Option Cursor} {least : Nat} {most : Option Nat}
  {reluctant : Bool}

theorem le_of_some (h : Forward body) {c d : Cursor} (hd : body c some = some d) :
    d.rest.length ≤ c.rest.length := by
  obtain ⟨e, he, hsome⟩ := h.found hd
  cases hsome
  exact he

/-- One way to match behind the other. -/
theorem seq {body' : Cursor → Continuation → Option Cursor} (h : Forward body)
    (h' : Forward body') : Forward fun c k => body c fun d => body' d k where
  congr hk := h.congr fun _ hd => h'.congr fun e he => hk e (he.trans hd)
  found he := by
    obtain ⟨d, hd, hrest⟩ := h.found he
    obtain ⟨d', hd', hk⟩ := h'.found hrest
    exact ⟨d', hd'.trans hd, hk⟩

theorem repeated (h : Forward body) (fuel turns : Nat) (last : Option Cursor) :
    Forward fun c k => Pattern.repeated body least most reluctant k fuel turns last c := by
  induction fuel generalizing turns last with
  | zero => exact ⟨fun _ => rfl, fun hnone => by cases hnone⟩
  | succ fuel ih =>
      -- A turn is the body with the other turns behind it.
      have hturn := fun last' => h.seq (ih (turns + 1) last')
      constructor
      · intro c k k' hk
        have hcongr : ∀ last', body c (fun d => Pattern.repeated body least most reluctant k fuel
              (turns + 1) last' d) =
            body c (fun d => Pattern.repeated body least most reluctant k' fuel
              (turns + 1) last' d) :=
          fun last' => (hturn last').congr hk
        rw [Pattern.repeated, Pattern.repeated, hcongr last, hcongr (some c),
          hk c (Nat.le_refl _)]
      · intro c k e he
        have hmore : (if isStuck most turns last c then none else body c fun d =>
            Pattern.repeated body least most reluctant k fuel (turns + 1) (some c) d) = some e →
              ∃ d : Cursor, d.rest.length ≤ c.rest.length ∧ k d = some e := by
          intro hif
          split at hif
          · cases hif
          · exact (hturn (some c)).found hif
        rw [Pattern.repeated] at he
        split at he
        · exact (hturn last).found he
        dsimp only at he
        split at he
        · split at he
          · next hk => exact ⟨c, Nat.le_refl _, hk.trans he⟩
          · exact hmore he
        · split at he
          · next hif => exact hmore (hif.trans he)
          · exact ⟨c, Nat.le_refl _, he⟩

theorem length_possessed (h : Forward body) {fuel turns : Nat} {last : Option Cursor}
    {c d : Cursor}
    (hd : possessed (fun c => body c some) least most fuel turns last c = some d) :
    d.rest.length ≤ c.rest.length := by
  induction fuel generalizing turns last c with
  | zero => cases hd
  | succ fuel ih =>
      rw [possessed] at hd
      split at hd
      · obtain ⟨e, he, hd⟩ := Option.bind_eq_some_iff.mp hd
        exact (ih hd).trans (h.le_of_some he)
      split at hd
      · cases hd
        exact Nat.le_refl _
      split at hd
      · cases hd
        exact Nat.le_refl _
      · next he => exact (ih hd).trans (h.le_of_some he)

/-- Without choices, what is found is passed on. -/
theorem of_bind (hbody : ∀ c k, body c k = (body c some).bind k)
    (hle : ∀ {c d}, body c some = some d → d.rest.length ≤ c.rest.length) : Forward body where
  congr {c k k'} hk := by
    rw [hbody c k, hbody c k']
    cases hfound : body c some with
    | none => rfl
    | some d => exact hk d (hle hfound)
  found {c k e} he := by
    rw [hbody] at he
    obtain ⟨d, hd, hk⟩ := Option.bind_eq_some_iff.mp he
    exact ⟨d, hle hd, hk⟩

end Forward

theorem length_move (c : Cursor) (n : Nat) : (c.move n).rest.length ≤ c.rest.length :=
  (List.drop_sublist _ _).length_le

/-- Patterns match forward, those with a look back too: one goes on from where one has looked. -/
theorem run_forward (p : Pattern) : Forward p.run := by
  induction p with
  | empty => exact .of_bind (fun _ _ => rfl) fun h => by cases h; exact Nat.le_refl _
  | char set =>
      refine .of_bind (fun c k => ?_) fun {c d} h => ?_
      · rw [run, run]
        repeat' split
        all_goals rfl
      · rw [run] at h
        repeat' split at h
        all_goals cases h
        exact length_move c 1
  | seq p q ihp ihq => exact ihp.seq ihq
  | alt p q ihp ihq =>
      refine ⟨fun hk => by rw [run, run, ihp.congr hk, ihq.congr hk], fun he => ?_⟩
      rw [run] at he
      split at he
      · next hp => exact ihp.found (hp.trans he)
      · exact ihq.found he
  | repetition p least most greed ih =>
      cases greed with
      | greedy =>
          exact ⟨fun hk => (ih.repeated _ _ _).congr hk, fun he => (ih.repeated _ _ _).found he⟩
      | reluctant =>
          exact ⟨fun hk => (ih.repeated _ _ _).congr hk, fun he => (ih.repeated _ _ _).found he⟩
      | possessive =>
          refine .of_bind (fun c k => ?_) fun {c d} h => ?_
          · rw [run, run, Option.bind_fun_some]
          · rw [run, Option.bind_fun_some] at h
            exact ih.length_possessed h
  | group number p ih =>
      cases number with
      | none => exact ih
      | some n =>
          refine ⟨fun hk => ih.congr fun d hd => hk _ hd, fun he => ?_⟩
          obtain ⟨d, hd, hk⟩ := ih.found he
          exact ⟨d.closing n, hd, hk⟩
  | atomic p ih =>
      refine .of_bind (fun c k => ?_) fun {c d} h => ?_
      · rw [run, run, Option.bind_fun_some]
      · rw [run, Option.bind_fun_some] at h
        exact ih.le_of_some h
  | look back negated p ih =>
      refine .of_bind (fun c k => ?_) fun {c d} h => ?_
      · rw [run, run]
        repeat' split
        all_goals rfl
      · rw [run] at h
        repeat' split at h
        all_goals cases h
        all_goals exact Nat.le_refl _
  | choice n p q ihp ihq =>
      refine ⟨fun hk => by rw [run, run, ihp.congr hk, ihq.congr hk], fun he => ?_⟩
      rw [run] at he
      split at he
      · exact ihp.found he
      · exact ihq.found he
  | again n fold =>
      refine .of_bind (fun c k => ?_) fun {c d} h => ?_
      · rw [run, run]
        repeat' split
        all_goals rfl
      · rw [run] at h
        repeat' split at h
        all_goals cases h
        exact length_move c _
  | anchor a =>
      refine .of_bind (fun c k => ?_) fun {c d} h => ?_
      · rw [run, run]
        split <;> rfl
      · rw [run] at h
        split at h <;> cases h
        exact Nat.le_refl _

/-- The turns that a repetition may still make: those that it has to, and at most one for each
character and one more that matches nothing. -/
def turnsLeft (least turns : Nat) (last : Option Cursor) (c : Cursor) : Nat :=
  (least - turns) + if last.any fun l => l.samePlace c then 0 else c.rest.length + 1

/-- A turn that has to be made leaves fewer of them. -/
theorem turnsLeft_due {least turns : Nat} {c d : Cursor} (hturns : turns < least)
    (hd : d.rest.length ≤ c.rest.length) :
    turnsLeft least (turns + 1) none d < turnsLeft least turns none c := by
  simp only [turnsLeft, Option.any_none, Bool.false_eq_true, if_false]
  omega

/-- A turn that may be made leaves fewer of them, as it matches something or is the last one. -/
theorem turnsLeft_more {least turns : Nat} {last : Option Cursor} {c d : Cursor}
    (hturns : ¬turns < least) (hlast : (last.any fun l => l.samePlace c) = false)
    (hd : d.rest.length ≤ c.rest.length) :
    turnsLeft least (turns + 1) (some c) d < turnsLeft least turns last c := by
  have hc : turnsLeft least turns last c = c.rest.length + 1 := by
    rw [turnsLeft, hlast, Nat.sub_eq_zero_of_le (Nat.le_of_not_lt hturns)]
    exact Nat.zero_add _
  rw [hc, turnsLeft]
  simp only [Option.any_some, Cursor.samePlace, beq_iff_eq]
  split <;> omega

section Turns

variable {body : Cursor → Continuation → Option Cursor} {least turns fuel fuel' : Nat}
  {most : Option Nat} {last : Option Cursor} {c : Cursor}

theorem Forward.repeated_congr (h : Forward body) {reluctant : Bool} {k : Continuation}
    (hlast : turns < least → last = none) (hf : turnsLeft least turns last c < fuel)
    (hf' : turnsLeft least turns last c < fuel') :
    Pattern.repeated body least most reluctant k fuel turns last c =
      Pattern.repeated body least most reluctant k fuel' turns last c := by
  induction fuel generalizing fuel' turns last c with
  | zero => exact absurd hf (Nat.not_lt_zero _)
  | succ fuel ih =>
      cases fuel' with
      | zero => exact absurd hf' (Nat.not_lt_zero _)
      | succ fuel' =>
          rw [Pattern.repeated, Pattern.repeated]
          by_cases hturns : turns < least
          · rw [if_pos hturns, if_pos hturns]
            obtain rfl := hlast hturns
            refine h.congr fun d hd => ?_
            have hless := turnsLeft_due hturns hd
            exact ih (fun _ => rfl) (by omega) (by omega)
          · rw [if_neg hturns, if_neg hturns]
            cases hstuck : isStuck most turns last c with
            | true => rfl
            | false =>
                have hplace := (Bool.or_eq_false_iff.mp hstuck).2
                have hmore : body c (fun d => Pattern.repeated body least most reluctant k fuel
                      (turns + 1) (some c) d) =
                    body c (fun d => Pattern.repeated body least most reluctant k fuel'
                      (turns + 1) (some c) d) := by
                  refine h.congr fun d hd => ?_
                  have hless := turnsLeft_more hturns hplace hd
                  exact ih (fun hdue => absurd hdue (by omega)) (by omega) (by omega)
                rw [hmore]

theorem Forward.possessed_congr (h : Forward body) (hlast : turns < least → last = none)
    (hf : turnsLeft least turns last c < fuel) (hf' : turnsLeft least turns last c < fuel') :
    possessed (fun c => body c some) least most fuel turns last c =
      possessed (fun c => body c some) least most fuel' turns last c := by
  induction fuel generalizing fuel' turns last c with
  | zero => exact absurd hf (Nat.not_lt_zero _)
  | succ fuel ih =>
      cases fuel' with
      | zero => exact absurd hf' (Nat.not_lt_zero _)
      | succ fuel' =>
          rw [possessed, possessed]
          by_cases hturns : turns < least
          · rw [if_pos hturns, if_pos hturns]
            obtain rfl := hlast hturns
            cases hbody : body c some with
            | none => rfl
            | some d =>
                have hless := turnsLeft_due hturns (h.le_of_some hbody)
                exact ih (fun _ => rfl) (by omega) (by omega)
          · rw [if_neg hturns, if_neg hturns]
            cases hstuck : isStuck most turns last c with
            | true => rfl
            | false =>
                have hplace := (Bool.or_eq_false_iff.mp hstuck).2
                cases hbody : body c some with
                | none => rfl
                | some d =>
                    have hless := turnsLeft_more hturns hplace (h.le_of_some hbody)
                    exact ih (fun hdue => absurd hdue (by omega)) (by omega) (by omega)

end Turns

/-- The bound on the turns of a repetition keeps it from none. -/
theorem run_repetition (p : Pattern) (least : Nat) (most : Option Nat) (greed : Greed)
    (c : Cursor) (k : Continuation) {fuel : Nat} (h : least + c.rest.length + 2 ≤ fuel) :
    (repetition p least most greed).run c k =
      match greed with
      | .greedy => repeated p.run least most false k fuel 0 none c
      | .reluctant => repeated p.run least most true k fuel 0 none c
      | .possessive => (possessed (fun d => p.run d some) least most fuel 0 none c).bind k := by
  have hleft : turnsLeft least 0 none c = least + c.rest.length + 1 := by
    simp [turnsLeft, Nat.add_assoc]
  have hforward := p.run_forward
  cases greed with
  | greedy => exact hforward.repeated_congr (fun _ => rfl) (by omega) (by omega)
  | reluctant => exact hforward.repeated_congr (fun _ => rfl) (by omega) (by omega)
  | possessive =>
      rw [run]
      exact congrArg (Option.bind · k)
        (hforward.possessed_congr (fun _ => rfl) (by omega) (by omega))

end Pattern

end FeatureFile
