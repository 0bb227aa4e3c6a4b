import FeatureFile.Proofs.Placeholders
import FeatureFile.Proofs.Replacing

/-!
# Placeholders that stand for themselves

A header cell goes through the reader of patterns, and the value below it through the reader of
templates. For a header cell without signs and a value without a backslash both are detours: filling
in replaces the placeholder, taken literally, wherever it occurs (`Pickle.fill_plain`). Header after
header this is a fold over the header cells, each replaced in the result of the one before
(`Pickle.interpolate_literally`), so that a value may well form a placeholder for a later header.

What it means to replace all occurrences of a text is said by `Text.Replaced`.
-/

namespace FeatureFile

/-! ## Literal patterns -/

namespace Cursor

theorem move_move (c : Cursor) (m n : Nat) : (c.move m).move n = c.move (m + n) := by
  simp [move, List.take_add, List.drop_drop]

end Cursor

namespace Pattern

variable {old value : Text}

theorem run_literal (x : Char) (c : Cursor) (k : Continuation) :
    run (literal x) c k = if [x].isPrefixOf c.rest then k (c.move 1) else none := by
  rw [literal, run]
  cases c.rest with
  | nil => rfl
  | cons y ys =>
      have hholds : CharSet.holds { classes := [.single x.toNat] } y =
          [x].isPrefixOf (y :: ys) := by
        rw [Bool.eq_iff_iff]
        simp [CharSet.holds, CharClass.holds, Fold.variants, List.isPrefixOf, Char.toNat_inj]
      simp only [hholds]

/-- A literal pattern matches exactly its own text. -/
theorem run_literals (t : Text) (c : Cursor) (k : Continuation) :
    run (ofList (t.map literal)) c k =
      if t.isPrefixOf c.rest then k (c.move t.length) else none := by
  induction t generalizing c with
  | nil => rfl
  | cons x xs ih =>
      rw [List.map_cons, ofList, run, run_literal]
      cases hrest : c.rest with
      | nil => rfl
      | cons y ys =>
          have hmoved : (c.move 1).rest = ys := by
            rw [Cursor.move, hrest]
            rfl
          rw [ih, hmoved, Cursor.move_move, List.length_cons, Nat.add_comm 1]
          cases hxy : x == y <;> simp [List.isPrefixOf, hxy]

theorem replacementAt_literals (past rest : Text) :
    (ofList (old.map literal)).replacementAt [.text value] false past rest =
      if old.isPrefixOf rest then some (value, old.length) else none := by
  rw [replacementAt, matchAt, run_literals]
  cases hfront : old.isPrefixOf rest with
  | false => rfl
  | true =>
      have hle := (List.isPrefixOf_iff_prefix.mp hfront).length_le
      have hlength : rest.length - (rest.drop old.length).length = old.length := by
        rw [List.length_drop]
        omega
      simp only [if_true, Bool.false_and, Bool.false_eq_true, if_false, Option.map_some, Cursor.move,
        hlength, TemplatePart.expand, List.append_nil]

/-- As there is something to match, a longer match is never looked for. -/
theorem replacementsAt_literals (hold : old ≠ []) (past rest : Text) :
    (ofList (old.map literal)).replacementsAt [.text value] past rest =
      if old.isPrefixOf rest then (value, old.length) else ([], 0) := by
  obtain ⟨n, hn⟩ : ∃ n, old.length = n + 1 :=
    Nat.exists_eq_succ_of_ne_zero (List.length_eq_zero_iff.not.mpr hold)
  rw [replacementsAt, replacementAt_literals, hn]
  cases old.isPrefixOf rest <;> rfl

/-- Replacing the matches of a literal pattern is replacing the occurrences of its text. -/
theorem replaceFrom_literals (hold : old ≠ []) (past : Text) (skip : Nat) (t : Text) :
    replaceFrom (ofList (old.map literal)) [.text value] past skip t =
      Text.substitute old value skip t := by
  induction t generalizing past skip with
  | nil =>
      cases skip with
      | zero =>
          have hfront : old.isPrefixOf [] = false := by
            cases old with
            | nil => exact absurd rfl hold
            | cons x xs => rfl
          rw [replaceFrom, replacementsAt_literals hold, hfront]
          rfl
      | succ skip => rfl
  | cons c cs ih =>
      cases skip with
      | zero =>
          obtain ⟨n, hn⟩ : ∃ n, old.length = n + 1 :=
            Nat.exists_eq_succ_of_ne_zero (List.length_eq_zero_iff.not.mpr hold)
          rw [replaceFrom, replacementsAt_literals hold, Text.substitute]
          cases old.isPrefixOf (c :: cs) with
          | true =>
              rw [if_pos rfl, if_pos rfl, hn]
              exact congrArg _ (ih (c :: past) n)
          | false => exact congrArg _ (ih (c :: past) 0)
      | succ skip => exact ih (c :: past) skip

end Pattern

/-! ## Filling in -/

namespace Pickle

variable {names : CharNames}

/-- How a header cell is written in the texts of an outline. -/
def placeholder (header : Text) : Text := "<".toList ++ header ++ ">".toList

/-- The placeholders of headers replaced by values, one header after the other. -/
def literally (pairs : List (Text × Text)) (t : Text) : Text :=
  pairs.foldl (fun t x => Text.replace (placeholder x.1) x.2 t) t

theorem placeholder_ne_nil (header : Text) : placeholder header ≠ [] := List.cons_ne_nil _ _

theorem fill_plain {header value : Text} (hheader : ∀ c ∈ header, c ∉ Pattern.signs)
    (hvalue : '\\' ∉ value) (t : Text) :
    fill names header value t = .ok (Text.replace (placeholder header) value t) := by
  have htemplate : TemplatePart.ofText {} value = .ok [.text value] := by
    rw [TemplatePart.ofText, if_neg]
    simpa using hvalue
  have hreplaced : (Pattern.ofList ((placeholder header).map Pattern.literal)).replaceMatches
      [.text value] t = Text.replace (placeholder header) value t :=
    Pattern.replaceFrom_literals (placeholder_ne_nil header) [] 0 t
  rw [fill, Pattern.ofHeader_plain hheader, ← placeholder]
  change (TemplatePart.ofText {} value >>= fun template => _) = _
  rw [htemplate, ← hreplaced]
  rfl

theorem interpolate_plain {headers values : List Draft.Cell} {hs vs : List Text}
    (hheaders : headers.map Draft.Cell.value = hs.map some)
    (hvalues : values.map Draft.Cell.value = vs.map some) (hlength : hs.length ≤ vs.length)
    (hplain : ∀ h ∈ hs, ∀ c ∈ h, c ∉ Pattern.signs) (hslash : ∀ v ∈ vs, '\\' ∉ v) (t : Text) :
    interpolate names headers values t = .ok (literally (hs.zip vs) t) := by
  induction hs generalizing headers values vs t with
  | nil =>
      rw [List.map_eq_nil_iff.mp hheaders]
      rfl
  | cons h hs ih =>
      cases vs with
      | nil => cases hlength
      | cons v vs =>
          obtain ⟨header, headers, rfl, hheader, hheaders⟩ := List.map_eq_cons_iff.mp hheaders
          obtain ⟨value, values, rfl, hvalue, hvalues⟩ := List.map_eq_cons_iff.mp hvalues
          rw [List.forall_mem_cons] at hplain hslash
          have hfirst : interpolate names (header :: headers) (value :: values) t =
              (fill names h v t >>= interpolate names headers values) := by
            rw [interpolate, hheader, hvalue]
            rfl
          rw [hfirst, fill_plain hplain.1 hslash.1]
          exact ih hheaders hvalues (Nat.le_of_succ_le_succ hlength) hplain.2 hslash.2 _

/-- A text without any of the placeholders stays as it is. -/
theorem literally_of_not_mem {pairs : List (Text × Text)} {t : Text}
    (h : ∀ x ∈ pairs, ¬ placeholder x.1 <:+: t) : literally pairs t = t := by
  induction pairs with
  | nil => rfl
  | cons x pairs ih =>
      rw [List.forall_mem_cons] at h
      have hsame : Text.replace (placeholder x.1) x.2 t = t :=
        (Text.replaced_replace (placeholder_ne_nil x.1) x.2 t).eq_self h.1
      rw [literally, List.foldl_cons, hsame]
      exact ih h.2

/-- Header cells without signs and values without a backslash are taken literally: filling in never
fails, it replaces the placeholders one after the other, each in the result of the one before, and it
leaves a text alone in which none of them occurs. -/
theorem interpolate_literally {headers values : List Draft.Cell} {hs vs : List Text}
    (hheaders : headers.map Draft.Cell.value = hs.map some)
    (hvalues : values.map Draft.Cell.value = vs.map some) (hlength : hs.length ≤ vs.length)
    (hplain : ∀ h ∈ hs, ∀ c ∈ h, c ∉ Pattern.signs) (hslash : ∀ v ∈ vs, '\\' ∉ v) (t : Text) :
    interpolate names headers values t = .ok (literally (hs.zip vs) t) ∧
      ((∀ h ∈ hs, ¬ placeholder h <:+: t) → interpolate names headers values t = .ok t) := by
  have hfilled : interpolate names headers values t = .ok (literally (hs.zip vs) t) :=
    interpolate_plain hheaders hvalues hlength hplain hslash t
  refine ⟨hfilled, fun hnone => ?_⟩
  rw [hfilled, literally_of_not_mem fun x hx => hnone x.1 (List.of_mem_zip hx).1]

/-- Two headers are the same, one is empty, and there is a value too many. The first two values form
placeholders by themselves, and the third one does with what stands behind it. -/
theorem interpolate_literally_chained :
    interpolate .empty (["a", "b", "a", ""].map fun h => { value := some h.toList })
        (["<b>", "<a>", "x|<", "c", "\n"].map fun v => { value := some v.toList })
        "<a><<b>> <>".toList = .ok "x|<<x|c c".toList ∧
      interpolate .empty (["a", "b", "a", ""].map fun h => { value := some h.toList })
        (["<b>", "<a>", "x|<", "c", "\n"].map fun v => { value := some v.toList })
        "<c> a> <b".toList = .ok "<c> a> <b".toList := by
  have hplain : ∀ h ∈ ["a", "b", "a", ""].map String.toList, ∀ c ∈ h, c ∉ Pattern.signs := by
    simp [Pattern.signs]
  have hslash : ∀ v ∈ ["<b>", "<a>", "x|<", "c", "\n"].map String.toList, '\\' ∉ v := by
    simp
  have hfilled := @interpolate_literally .empty
    (["a", "b", "a", ""].map fun h => { value := some h.toList })
    (["<b>", "<a>", "x|<", "c", "\n"].map fun v => { value := some v.toList }) _ _
    rfl rfl (by decide) hplain hslash
  exact ⟨(hfilled _).1, (hfilled _).2 (by decide)⟩

end Pickle

end FeatureFile
