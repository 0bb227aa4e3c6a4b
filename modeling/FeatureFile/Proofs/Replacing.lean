import FeatureFile.Text.Basic
import Mathlib.Data.List.Infix

/-!
# Replacing all occurrences

`Text.replace` walks along a text and replaces what it meets. `Text.Replaced` says what it does without
walking: there is a first occurrence, which is replaced, and the text goes on behind it; or there is
none, and the text stays as it is.
-/

namespace FeatureFile

namespace Text

variable {old new t u : Text}

/-- A text with every occurrence of `old` replaced by `new`, from the left and without overlap. -/
inductive Replaced (old new : Text) : Text → Text → Prop where
  | none {t : Text} (h : ¬ old <:+: t) : Replaced old new t t
  /-- No occurrence ends before the first one does. -/
  | first (before : Text) {t u : Text} (h : ¬ old <:+: before ++ old.dropLast)
      (rest : Replaced old new t u) : Replaced old new (before ++ (old ++ t)) (before ++ (new ++ u))

theorem Replaced.eq_self (h : Replaced old new t u) (hnone : ¬ old <:+: t) : u = t := by
  cases h with
  | none _ => rfl
  | @first before t _ _ _ => exact absurd ⟨before, t, List.append_assoc _ _ _⟩ hnone

/-- A character in front at which `old` does not begin stays where it is. -/
theorem Replaced.cons {c : Char} (h : Replaced old new t u) (hfront : ¬ old <+: c :: t) :
    Replaced old new (c :: t) (c :: u) := by
  cases h with
  | none hnone =>
      refine .none fun hin => ?_
      rcases List.infix_cons_iff.mp hin with hin | hin
      · exact hfront hin
      · exact hnone hin
  | @first before t u hnone rest =>
      refine .first (c :: before) (fun hin => ?_) rest
      rw [List.cons_append] at hin
      rcases List.infix_cons_iff.mp hin with hin | hin
      · have hlonger : before ++ old.dropLast <+: before ++ (old ++ t) :=
          (List.prefix_append_right_inj before).mpr
            ((List.dropLast_prefix old).trans (List.prefix_append old t))
        exact hfront (hin.trans (List.cons_prefix_cons.mpr ⟨rfl, hlonger⟩))
      · exact hnone hin

theorem substitute_eq_drop (old new : Text) (n : Nat) (t : Text) :
    substitute old new n t = substitute old new 0 (t.drop n) := by
  induction t generalizing n with
  | nil => cases n <;> rfl
  | cons c cs ih =>
      cases n with
      | zero => rfl
      | succ n => exact ih n

theorem replace_front (hne : old ≠ []) (t : Text) :
    replace old new (old ++ t) = new ++ replace old new t := by
  cases old with
  | nil => exact absurd rfl hne
  | cons c cs =>
      have hfront : (c :: cs).isPrefixOf (c :: (cs ++ t)) = true :=
        List.isPrefixOf_iff_prefix.mpr (List.prefix_append (c :: cs) t)
      rw [replace, List.cons_append, substitute, if_pos hfront, substitute_eq_drop,
        List.length_cons, Nat.add_sub_cancel, List.drop_left]
      rfl

theorem replace_cons {c : Char} {t : Text} (h : ¬ old <+: c :: t) :
    replace old new (c :: t) = c :: replace old new t := by
  rw [replace, substitute, if_neg (mt List.isPrefixOf_iff_prefix.mp h)]
  rfl

/-- `replace` replaces all occurrences. -/
theorem replaced_replace (hne : old ≠ []) (new t : Text) :
    Replaced old new t (replace old new t) := by
  have hpos := List.length_pos_of_ne_nil hne
  -- Behind an occurrence the text goes on at a later place than the next character.
  induction hlength : t.length using Nat.strong_induction_on generalizing t with
  | _ n ih =>
      by_cases hfront : old <+: t
      · obtain ⟨rest, rfl⟩ := hfront
        rw [List.length_append] at hlength
        rw [replace_front hne]
        refine .first [] (fun hin => ?_) (ih rest.length (by omega) rest rfl)
        have hle := hin.length_le
        rw [List.nil_append, List.length_dropLast] at hle
        omega
      · cases t with
        | nil => exact .none fun hin => hne (List.infix_nil.mp hin)
        | cons c cs =>
            rw [List.length_cons] at hlength
            rw [replace_cons hfront]
            exact (ih cs.length (by omega) cs rfl).cons hfront

end Text

end FeatureFile
