import Mathlib.Data.List.Infix
import FeatureFile.Pattern.Template

/-!
# Patterns are read to the end

The readers of patterns and templates count down from a bound that depends on the length of the
text. None of them ever stops because of it: two bounds that are large enough give the same result
(`readAlternatives_of_le`, `readSet_congr`, `readParts_congr`).

This rests on one observation about each of them: what it leaves of the text is no longer than what
it was given, and shorter if something has been read. A pattern is read by two readers that call
each other for every bracket, so each character pays for one call of either (`Settles`).
-/

namespace FeatureFile

namespace Pattern

/-- What is left behind an opening bracket, and behind all that has been read with it. -/
def Opening.rest : Opening → Text
  | .nothing rest | .part _ rest | .bracket _ rest => rest

section Rests

variable {names : CharNames} {ascii : Bool} {scope : Scope} {s : Source} {c : Char} {p : Pattern}
  {t rest : Text}

/-! ## What is left behind an escape or a set -/

theorem length_drop_of_cons {n : Nat} (h : t.drop n = c :: rest) :
    rest.length < t.length := by
  have hlength := congrArg List.length h
  rw [List.length_drop, List.length_cons] at hlength
  omega

theorem length_readHex {n value m : Nat}
    (h : readHex n value t = some (m, rest)) : rest.length ≤ t.length := by
  fun_induction readHex n value t with
  | case1 value t =>
      cases h
      exact Nat.le_refl _
  | case2 | case3 | case4 =>
      rename_i ih
      exact Nat.le_succ_of_le (ih h)
  | case5 | case6 => cases h

theorem length_readName {stop : Char} {name : Text}
    (h : readName stop t = some (name, rest)) : rest.length < t.length := by
  unfold readName at h
  dsimp only at h
  split at h
  · cases h
  · next hdrop =>
      cases h
      exact length_drop_of_cons hdrop

theorem length_readNamed {n : Nat}
    (h : readNamed names t = some (n, rest)) : rest.length ≤ t.length := by
  unfold readNamed at h
  split at h
  · simp only [Option.bind_eq_bind, Option.bind_eq_some_iff, Prod.exists] at h
    obtain ⟨name, left, hname, h⟩ := h
    have hleft := length_readName hname
    split at h
    · cases h
    · obtain ⟨m, _, hpair⟩ := Option.map_eq_some_iff.mp h
      cases hpair
      exact Nat.le_succ_of_le (Nat.le_of_lt hleft)
  · cases h

theorem length_readCode {n : Nat}
    (h : readCode names c t = some (n, rest)) : rest.length ≤ t.length := by
  unfold readCode at h
  split at h
  · exact length_readHex h
  split at h
  · exact length_readHex h
  split at h
  · exact length_readHex (Option.filter_eq_some_iff.mp h).1
  split at h
  · exact length_readNamed h
  · cases h

theorem length_readSetEscape {item : CharClass}
    (h : readSetEscape names ascii c t = some (item, rest)) : rest.length ≤ t.length := by
  unfold readSetEscape at h
  split at h
  · cases h
    exact Nat.le_refl _
  · cases h
    exact Nat.le_refl _
  split at h
  · cases h
    exact Nat.le_refl _
  split at h
  · dsimp only at h
    split at h
    · cases h
      exact (List.drop_sublist _ _).length_le
    · cases h
  split at h
  · cases h
  split at h
  · obtain ⟨x, hcode, hx⟩ := Option.map_eq_some_iff.mp h
    cases hx
    exact length_readCode hcode
  · cases h
    exact Nat.le_refl _

theorem length_readSetItem {item : CharClass}
    (h : readSetItem names ascii t = some (item, rest)) : rest.length < t.length := by
  unfold readSetItem at h
  split at h
  · cases h
  · exact Nat.lt_succ_of_le (Nat.le_succ_of_le (length_readSetEscape h))
  · cases h
  · cases h
    exact Nat.lt_succ_self _

theorem length_readSet {fuel : Nat} {classes classes' : List CharClass}
    (h : readSet names ascii fuel classes t = some (classes', rest)) : rest.length ≤ t.length := by
  induction fuel generalizing classes t with
  | zero => cases h
  | succ fuel ih =>
      unfold readSet at h
      split at h
      · cases h
        exact Nat.le_succ _
      simp only [Option.bind_eq_bind, Option.bind_eq_some_iff, Prod.exists] at h
      obtain ⟨low, left, hlow, h⟩ := h
      have hleft := length_readSetItem hlow
      split at h
      · cases h
        simp only [List.length_cons] at hleft
        omega
      · simp only [Option.bind_eq_some_iff, Prod.exists] at h
        obtain ⟨high, last, hhigh, h⟩ := h
        have hlast := length_readSetItem hhigh
        simp only [List.length_cons] at hleft
        split at h
        · split at h
          · cases h
          · have hrest := ih h
            omega
        · cases h
      · have hrest := ih h
        omega

theorem length_readBrackets (h : readBrackets names scope t = some (p, rest)) :
    rest.length ≤ t.length := by
  unfold readBrackets at h
  split at h
  all_goals
    next hmatch =>
      obtain ⟨x, hset, hx⟩ := Option.map_eq_some_iff.mp h
      cases hx
      have hleft := length_readSet hset
      split at hmatch <;> cases hmatch
      · exact Nat.le_succ_of_le hleft
      · exact hleft

theorem length_readNumber (h : readNumber scope s c t = some (p, rest)) :
    rest.length ≤ t.length := by
  unfold readNumber at h
  dsimp only at h
  repeat' split at h
  all_goals cases h
  all_goals exact (List.drop_sublist _ _).length_le

theorem length_readEscape (h : readEscape names scope s c t = some (p, rest)) :
    rest.length ≤ t.length := by
  unfold readEscape at h
  split at h
  case h_4 =>
    split at h
    · exact length_readNumber h
    split at h
    · obtain ⟨x, hcode, hx⟩ := Option.map_eq_some_iff.mp h
      cases hx
      exact length_readCode hcode
    · cases h
      exact Nat.le_refl _
  all_goals
    cases h
    exact Nat.le_refl _

theorem length_readAtom (h : readAtom names scope s c t = some (p, rest)) :
    rest.length ≤ t.length := by
  unfold readAtom at h
  split at h
  · cases h
    exact Nat.le_refl _
  split at h
  · cases h
    exact Nat.le_refl _
  split at h
  · cases h
    exact Nat.le_refl _
  split at h
  · exact length_readBrackets h
  split at h
  · split at h
    · cases h
    · exact Nat.le_succ_of_le (length_readEscape h)
  · cases h
    exact Nat.le_refl _

/-! ## What is left behind marks, blanks and brackets -/

theorem rest_countMark {low high rest' : Text} {least : Nat} {most : Option Nat}
    (h : countMark low high rest = .count least most rest') : rest' = rest := by
  unfold countMark at h
  split at h
  · cases h
  split at h
  · cases h
    rfl
  split at h
  · cases h
  split at h <;> cases h
  rfl

theorem length_readMark {least : Nat} {most : Option Nat}
    (h : readMark t = .count least most rest) : rest.length < t.length := by
  unfold readMark at h
  split at h
  · cases h
    exact Nat.lt_succ_self _
  · cases h
    exact Nat.lt_succ_self _
  · cases h
    exact Nat.lt_succ_self _
  · cases h
  · next cs _ =>
      have hlow := (List.dropWhile_sublist isPlainDigit (l := cs)).length_le
      dsimp only at h
      split at h
      · next hbrace =>
          obtain rfl := rest_countMark h
          split at hbrace <;> dsimp only at hbrace
          · next ds hcomma =>
              have hhigh := (List.dropWhile_sublist isPlainDigit (l := ds)).length_le
              rw [hcomma] at hlow
              rw [hbrace] at hhigh
              simp only [List.length_cons] at hlow hhigh ⊢
              omega
          · rw [hbrace] at hlow
            simp only [List.length_cons] at hlow ⊢
            omega
      · cases h
  · cases h

theorem length_readGreed (t : Text) : (readGreed t).2.length ≤ t.length := by
  unfold readGreed
  split
  · exact Nat.le_succ _
  · exact Nat.le_succ _
  · exact Nat.le_refl _

theorem length_readRepetition {parts parts' : List Pattern}
    (h : readRepetition scope parts c t = .ok (parts', rest)) : rest.length ≤ t.length := by
  unfold readRepetition at h
  split at h
  · cases h
  · cases h
    exact Nat.le_refl _
  · next hmark =>
      have hleft := Nat.le_of_lt_succ (length_readMark hmark)
      split at h
      · cases h
      split at h
      · cases h
        exact (length_readGreed _).trans hleft
      · cases h

theorem length_dropLine (t : Text) : (dropLine t).length ≤ t.length := by
  fun_induction dropLine t <;> grind

theorem length_skip (h : scope.skip? c t = some rest) : rest.length ≤ t.length := by
  unfold Scope.skip? at h
  split at h
  · cases h
  split at h
  · cases h
    exact Nat.le_refl _
  split at h
  · cases h
    exact length_dropLine t
  · cases h

theorem length_dropComment (h : dropComment t = some rest) : rest.length < t.length := by
  fun_induction dropComment t <;> grind

theorem length_readFlags {inside : Scope} (h : readFlags scope t = some (inside, rest)) :
    rest.length ≤ t.length := by
  unfold readFlags at h
  dsimp only at h
  split at h
  · cases h
  split at h
  · next hcolon =>
      split at h <;> cases h
      have hleft := length_drop_of_cons hcolon
      omega
  · next hhyphen =>
      have hleft := length_drop_of_cons hhyphen
      split at h
      · next hcolon =>
          split at h <;> cases h
          have hback := length_drop_of_cons hcolon
          omega
      · cases h
  · cases h

theorem rest_openGroup {name : Option Text} {o : Opening} (h : openGroup s name rest = some o) :
    o.rest = rest := by
  unfold openGroup at h
  split at h <;> cases h
  rfl

theorem length_readExtension {o : Opening} (h : readExtension scope s t = some o) :
    o.rest.length ≤ t.length := by
  unfold readExtension at h
  split at h
  case h_7 =>
    obtain ⟨rest, hrest, rfl⟩ := Option.map_eq_some_iff.mp h
    exact Nat.le_succ_of_le (length_dropComment hrest).le
  case h_8 =>
    simp only [Option.bind_eq_bind, Option.bind_eq_some_iff, Prod.exists] at h
    obtain ⟨name, rest, hname, h⟩ := h
    have hleft := length_readName hname
    split at h
    · rw [rest_openGroup h]
      simp only [List.length_cons]
      omega
    · cases h
  case h_9 | h_10 =>
    simp only [Option.bind_eq_bind, Option.bind_eq_some_iff, Prod.exists] at h
    obtain ⟨name, rest, hname, n, _, h⟩ := h
    have hleft := length_readName hname
    split at h <;> cases h
    simp only [Opening.rest, List.length_cons]
    omega
  case h_11 =>
    simp only [Option.bind_eq_bind, Option.bind_eq_some_iff, Prod.exists] at h
    obtain ⟨inside, rest, hflags, h⟩ := h
    cases h
    exact length_readFlags hflags
  all_goals
    cases h
    simp only [Opening.rest, List.length_cons]
    omega

theorem length_readOpening {o : Opening} (h : readOpening scope s t = some o) :
    o.rest.length ≤ t.length := by
  unfold readOpening at h
  split at h
  · exact Nat.le_succ_of_le (length_readExtension h)
  · exact (congrArg List.length (rest_openGroup h)).le

end Rests

/-! ## The two readers of patterns -/

theorem rest_enter (b : Bracket) (s : Source) (rest : Text) : (b.enter s rest).rest = rest := by
  cases b <;> rfl

theorem rest_leave (b : Bracket) (s t : Source) (ps : List Pattern) :
    (b.leave s t ps).rest = t.rest := by
  cases b <;> rfl

/-- What the two readers leave is no longer than what they are given. -/
structure Leaves (names : CharNames) (fuel : Nat) : Prop where
  alternatives : ∀ {scope bars s ps t}, readAlternatives names fuel scope bars s = .ok (ps, t) →
    t.rest.length ≤ s.rest.length
  sequence : ∀ {scope parts s p t}, readSequence names fuel scope parts s = .ok (p, t) →
    t.rest.length ≤ s.rest.length

namespace Leaves

variable {names : CharNames} {fuel : Nat} {scope : Scope} {s t : Source}

theorem of_alternatives (ih : Leaves names fuel) {bars : Option Nat} {ps : List Pattern}
    (h : readAlternatives names (fuel + 1) scope bars s = .ok (ps, t)) :
    t.rest.length ≤ s.rest.length := by
  rw [readAlternatives] at h
  split at h
  · cases h
  · next hfirst =>
      have hleft := ih.sequence hfirst
      split at h
      · next hbar =>
          rw [hbar] at hleft
          split at h
          · cases h
          split at h
          · cases h
          · next hrest =>
              cases h
              exact (ih.alternatives hrest).trans (Nat.le_of_succ_le hleft)
      · cases h
        exact hleft

theorem of_sequence (ih : Leaves names fuel) {parts : List Pattern} {p : Pattern}
    (h : readSequence names (fuel + 1) scope parts s = .ok (p, t)) :
    t.rest.length ≤ s.rest.length := by
  rw [readSequence] at h
  split at h
  · cases h
    exact Nat.le_refl _
  next c cs hs =>
  rw [hs, List.length_cons]
  split at h
  · cases h
    exact (congrArg List.length hs).le
  apply Nat.le_succ_of_le
  split at h
  · next hskip => exact (ih.sequence h).trans (length_skip hskip)
  split at h
  · -- A repetition mark, or a brace that is none.
    split at h
    · cases h
    · next hmark => exact (ih.sequence h).trans (length_readRepetition hmark)
  split at h
  · -- A round bracket: its inside leaves at most what stands behind it.
    split at h
    · cases h
    · next hopening => exact (ih.sequence h).trans (length_readOpening hopening)
    · next hopening => exact (ih.sequence h).trans (length_readOpening hopening)
    · next hopening =>
        have hleft := length_readOpening hopening
        split at h
        · cases h
        · next hinside =>
            have hback := ih.alternatives hinside
            rw [rest_enter] at hback
            split at h
            · next hclose =>
                have hrest := ih.sequence h
                rw [rest_leave] at hrest
                rw [hclose] at hback
                exact hrest.trans ((Nat.le_of_succ_le hback).trans hleft)
            · cases h
  · split at h
    · cases h
    · next hatom => exact (ih.sequence h).trans (length_readAtom hatom)

end Leaves

theorem leaves (names : CharNames) (fuel : Nat) : Leaves names fuel := by
  induction fuel with
  | zero =>
      constructor <;> intros <;> rename_i h
      · rw [readAlternatives] at h
        cases h
      · rw [readSequence] at h
        cases h
  | succ fuel ih => exact ⟨ih.of_alternatives, ih.of_sequence⟩

/-- A bound is as good as any larger one, if it allows for two calls for each character. -/
structure Settles (names : CharNames) (fuel fuel' : Nat) : Prop where
  alternatives : ∀ {scope bars s}, 2 * s.rest.length + 2 ≤ fuel → 2 * s.rest.length + 2 ≤ fuel' →
    readAlternatives names fuel scope bars s = readAlternatives names fuel' scope bars s
  sequence : ∀ {scope parts s}, 2 * s.rest.length + 1 ≤ fuel → 2 * s.rest.length + 1 ≤ fuel' →
    readSequence names fuel scope parts s = readSequence names fuel' scope parts s

namespace Settles

variable {names : CharNames} {fuel fuel' : Nat} {scope : Scope} {s : Source}

theorem of_alternatives (ih : Settles names fuel fuel') {bars : Option Nat}
    (h : 2 * s.rest.length + 1 ≤ fuel) (h' : 2 * s.rest.length + 1 ≤ fuel') :
    readAlternatives names (fuel + 1) scope bars s =
      readAlternatives names (fuel' + 1) scope bars s := by
  rw [readAlternatives, readAlternatives, ih.sequence h h']
  cases hfirst : readSequence names fuel' scope [] s with
  | error fault => rfl
  | ok x =>
      obtain ⟨p, t⟩ := x
      have hleft := (leaves names fuel').sequence hfirst
      dsimp only
      split
      · next cs hbar =>
          rw [hbar, List.length_cons] at hleft
          rw [ih.alternatives (by dsimp only; omega) (by dsimp only; omega)]
      · rfl

theorem of_sequence (ih : Settles names fuel fuel') {parts : List Pattern}
    (h : 2 * s.rest.length ≤ fuel) (h' : 2 * s.rest.length ≤ fuel') :
    readSequence names (fuel + 1) scope parts s =
      readSequence names (fuel' + 1) scope parts s := by
  rw [readSequence, readSequence]
  cases hs : s.rest with
  | nil => rfl
  | cons c cs =>
      rw [hs, List.length_cons] at h h'
      -- What is read next leaves at most `cs`.
      have hnext : ∀ {parts : List Pattern} {t : Source}, t.rest.length ≤ cs.length →
          readSequence names fuel scope parts t = readSequence names fuel' scope parts t :=
        fun hle => ih.sequence (by omega) (by omega)
      dsimp only
      split
      · rfl
      cases hskip : scope.skip? c cs with
      | some rest => exact hnext (length_skip hskip)
      | none =>
          dsimp only
          split
          · cases hmark : readRepetition scope parts c cs with
            | error fault => rfl
            | ok x => exact hnext (length_readRepetition hmark)
          split
          · cases hopening : readOpening scope s cs with
            | none => rfl
            | some o =>
                have hleft := length_readOpening hopening
                cases o with
                | nothing rest => exact hnext hleft
                | part p rest => exact hnext hleft
                | bracket b rest =>
                    dsimp only [Opening.rest] at hleft ⊢
                    have hinside : (b.enter s rest).rest.length ≤ cs.length := by
                      rw [rest_enter]
                      exact hleft
                    rw [ih.alternatives (by omega) (by omega)]
                    cases hback : readAlternatives names fuel' (b.scope scope s) b.bars
                        (b.enter s rest) with
                    | error fault => rfl
                    | ok x =>
                        obtain ⟨ps, t⟩ := x
                        have hless := (leaves names fuel').alternatives hback
                        dsimp only
                        split
                        · next hclose =>
                            rw [hclose, List.length_cons] at hless
                            refine hnext ?_
                            rw [rest_leave]
                            dsimp only
                            omega
                        · rfl
          · cases hatom : readAtom names scope s c cs with
            | none => rfl
            | some x => exact hnext (length_readAtom hatom)

end Settles

theorem settles (names : CharNames) (fuel fuel' : Nat) : Settles names fuel fuel' := by
  induction fuel generalizing fuel' with
  | zero => exact ⟨fun h => absurd h (by omega), fun h => absurd h (by omega)⟩
  | succ fuel ih =>
      cases fuel' with
      | zero => exact ⟨fun _ h => absurd h (by omega), fun _ h => absurd h (by omega)⟩
      | succ fuel' =>
          exact ⟨fun h h' => (ih fuel').of_alternatives (by omega) (by omega),
            fun h h' => (ih fuel').of_sequence (by omega) (by omega)⟩

/-- The bound that a header is read with stops no reader. -/
theorem readAlternatives_of_le (names : CharNames) {fuel : Nat} {scope : Scope}
    {bars : Option Nat} {s : Source} (h : 2 * s.rest.length + 2 ≤ fuel) :
    readAlternatives names fuel scope bars s =
      readAlternatives names (2 * s.rest.length + 2) scope bars s :=
  (settles names _ _).alternatives h (Nat.le_refl _)

theorem readSet_congr {names : CharNames} {ascii : Bool} {fuel fuel' : Nat}
    {classes : List CharClass} {t : Text} (h : t.length < fuel) (h' : t.length < fuel') :
    readSet names ascii fuel classes t = readSet names ascii fuel' classes t := by
  induction fuel generalizing fuel' classes t with
  | zero => exact absurd h (Nat.not_lt_zero _)
  | succ fuel ih =>
      cases fuel' with
      | zero => exact absurd h' (Nat.not_lt_zero _)
      | succ fuel' =>
          unfold readSet
          split
          · rfl
          cases hlow : readSetItem names ascii t with
          | none => rfl
          | some x =>
              obtain ⟨low, left⟩ := x
              have hleft := length_readSetItem hlow
              simp only [Option.bind_eq_bind, Option.bind_some]
              split
              · rfl
              · next last _ =>
                  cases hhigh : readSetItem names ascii last with
                  | none => rfl
                  | some y =>
                      have hlast := length_readSetItem hhigh
                      simp only [Option.bind_some]
                      rw [List.length_cons] at hleft
                      split
                      · split
                        · rfl
                        · exact ih (by omega) (by omega)
                      · rfl
              · exact ih (by omega) (by omega)

end Pattern

/-! ## Templates -/

namespace TemplatePart

open Pattern

theorem length_readNumber {groups : Groups} {c : Char} {t rest : Text} {part : TemplatePart}
    (h : readNumber groups c t = .ok (part, rest)) : rest.length ≤ t.length := by
  unfold readNumber at h
  dsimp only at h
  split at h
  · cases h
    exact (List.drop_sublist _ _).length_le
  split at h
  · split at h <;> cases h
    exact (List.drop_sublist _ _).length_le
  · cases hgroup : groupOf groups (valueOf 10 (c :: takeAtMost isPlainDigit 1 t)) with
    | error fault =>
        rw [hgroup] at h
        cases h
    | ok p =>
        rw [hgroup] at h
        cases h
        exact (List.drop_sublist _ _).length_le

theorem length_readEscape {groups : Groups} {c : Char} {t rest : Text} {part : TemplatePart}
    (h : readEscape groups c t = .ok (part, rest)) : rest.length ≤ t.length := by
  unfold readEscape at h
  split at h
  · split at h
    · next cs =>
        dsimp only at h
        split at h
        · cases h
        · cases h
        · next hdrop =>
            cases hgroup : groupNamed groups (cs.takeWhile fun d => d != '>') with
            | error fault =>
                rw [hgroup] at h
                cases h
            | ok p =>
                rw [hgroup] at h
                cases h
                exact Nat.le_succ_of_le (length_drop_of_cons hdrop).le
    · cases h
  split at h
  · exact length_readNumber h
  repeat' split at h
  all_goals cases h
  all_goals exact Nat.le_refl _

theorem readParts_congr {groups : Groups} {fuel fuel' : Nat} {t : Text} (h : t.length < fuel)
    (h' : t.length < fuel') : readParts groups fuel t = readParts groups fuel' t := by
  induction fuel generalizing fuel' t with
  | zero => exact absurd h (Nat.not_lt_zero _)
  | succ fuel ih =>
      cases fuel' with
      | zero => exact absurd h' (Nat.not_lt_zero _)
      | succ fuel' =>
          unfold readParts
          split
          · rfl
          · rfl
          · next c cs =>
              simp only [List.length_cons] at h h'
              cases hescape : readEscape groups c cs with
              | error fault => rfl
              | ok x =>
                  have hleft := length_readEscape hescape
                  have hrest : readParts groups fuel x.2 = readParts groups fuel' x.2 :=
                    ih (by omega) (by omega)
                  exact congrArg (Except.map (x.1 :: ·)) hrest
          · simp only [List.length_cons] at h h'
            exact congrArg (Except.map _) (ih (by omega) (by omega))

end TemplatePart

end FeatureFile
