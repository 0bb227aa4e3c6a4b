import FeatureFile.Proofs.Keywords
import FeatureFile.Proofs.Readings
import Mathlib.Data.List.Find

/-!
# The end of a line

How a line ends has no influence on what the line is read as: a line feed, a carriage return in
front of it, or nothing at all, as at the end of a source. This is `Matcher.readLine_append`, for all
kinds of token and in all languages.

Mostly it is a matter of trimming. Three things need more. The indent of a line counts blanks, and a
line end is blank; but only of a blank line is it part of the indent, and the indent of a blank line
is never asked for. Inside a doc string a line loses some of its indent without being trimmed; what
may be left of its end is dropped afterwards. And a keyword must not reach into the end of the line,
which none does.
-/

namespace FeatureFile

namespace Text

variable {t e : Text}

/-- Text without a line end is replaced in front of the end of the line. -/
theorem substitute_append {old new : Text} (hne : old ≠ []) (hold : old.any isLineEnd = false)
    (he : ∀ c ∈ e, isLineEnd c = true) {n : Nat} (hn : n ≤ t.length) :
    substitute old new n (t ++ e) = substitute old new n t ++ e := by
  induction t generalizing n with
  | nil =>
      obtain rfl : n = 0 := Nat.le_zero.mp hn
      change substitute old new 0 e = e
      induction e with
      | nil => rfl
      | cons c e ih =>
          have hstart : old.isPrefixOf (c :: e) = false := by
            cases old with
            | nil => exact absurd rfl hne
            | cons d old => exact isPrefixOf_append (t := []) hold he
          rw [substitute, if_neg (by rw [hstart]; exact Bool.false_ne_true),
            ih fun d hd => he d (List.mem_cons_of_mem _ hd)]
  | cons c t ih =>
      cases n with
      | succ n => exact ih (Nat.le_of_succ_le_succ hn)
      | zero =>
          have hstart : old.isPrefixOf (c :: (t ++ e)) = old.isPrefixOf (c :: t) :=
            isPrefixOf_append (t := c :: t) hold he
          rw [List.cons_append, substitute, substitute, hstart]
          split
          · next hfront =>
              have hlength := (List.isPrefixOf_iff_prefix.mp hfront).length_le
              rw [List.length_cons] at hlength
              rw [ih (by omega), List.append_assoc]
          · rw [ih (Nat.zero_le _)]
            rfl

end Text

namespace Line

variable {t e start : Text} {n : Nat}

theorem not_isBlank_of_startsWith (hne : start ≠ []) (h : startsWith t start = true) :
    isBlank t = false := by
  rw [isBlank_eq_false]
  intro hnil
  have hfront := List.isPrefixOf_iff_prefix.mp h
  rw [hnil, List.prefix_nil] at hfront
  exact hne hfront

theorem isBlank_iff : isBlank t = true ↔ ∀ c ∈ t, FeatureFile.isBlank c = true := by
  rw [isBlank, List.isEmpty_iff, trimmed, Text.trimLeft, List.dropWhile_eq_nil_iff]

theorem indent_le (t : Text) : indent t ≤ t.length :=
  (List.takeWhile_prefix _).length_le

theorem indent_of_isBlank (ht : isBlank t = true) : indent t = t.length := by
  rw [indent, Text.indent, List.takeWhile_eq_self_iff.mpr (isBlank_iff.mp ht)]

theorem indent_append (ht : isBlank t = false) (e : Text) : indent (t ++ e) = indent t := by
  have hshort : (t.takeWhile FeatureFile.isBlank).length ≠ t.length := by
    intro hall
    have hself := (List.takeWhile_prefix _).eq_of_length hall
    rw [isBlank_iff.mpr (List.takeWhile_eq_self_iff.mp hself)] at ht
    cases ht
  rw [indent, Text.indent, List.takeWhile_append, if_neg hshort]
  rfl

variable (he : ∀ c ∈ e, Text.isLineEnd c = true)

include he

theorem blanks_of_lineEnds : ∀ c ∈ e, FeatureFile.isBlank c = true :=
  fun c hc => Text.isBlank_of_isLineEnd (he c hc)

theorem rest_append (t : Text) (n : Nat) : rest (t ++ e) n = rest t n := by
  obtain ⟨e', he', hdrop⟩ := exists_drop_trimmed_append he t n
  rw [rest, rest, hdrop, Text.trim_append_blanks _ (blanks_of_lineEnds he')]

theorem cells_append (ht : isBlank t = false) : cells (t ++ e) = cells t := by
  rw [cells, cells, indent_append ht, Text.trim_append_blanks _ (blanks_of_lineEnds he)]

theorem tags_append (ht : isBlank t = false) : tags (t ++ e) = tags t := by
  rw [tags, tags, indent_append ht, Text.trim_append_blanks _ (blanks_of_lineEnds he)]

/-- A line that loses some of its indent keeps its end, or the part of it that is not lost as indent
of a blank line. -/
theorem exists_dedent_append (t : Text) (n : Nat) :
    ∃ e', (∀ c ∈ e', Text.isLineEnd c = true) ∧ dedent (t ++ e) n = dedent t n ++ e' := by
  rw [dedent, dedent]
  cases ht : isBlank t with
  | true =>
      have hall : isBlank (t ++ e) = true := by rw [isBlank_append he, ht]
      rw [indent_of_isBlank ht, indent_of_isBlank hall]
      rw [isBlank, List.isEmpty_iff] at ht hall
      rw [ht, hall]
      have hlonger : t.length ≤ (t ++ e).length := (List.prefix_append t e).length_le
      by_cases hn : (t ++ e).length < n
      · rw [if_pos hn, if_pos (by omega)]
        exact ⟨[], List.forall_mem_nil _, rfl⟩
      · refine ⟨e.drop (n - t.length), fun c hc => he c (List.mem_of_mem_drop hc), ?_⟩
        rw [if_neg hn, List.drop_append]
        split
        · next hlt => rw [List.drop_eq_nil_of_le (Nat.le_of_lt hlt)]
        · rfl
  | false =>
      refine ⟨e, he, ?_⟩
      rw [indent_append ht, trimmed_append ht]
      split
      · rfl
      · next hn =>
          have hle := indent_le t
          rw [List.drop_append_of_le_length (by omega)]

end Line

namespace Matcher

variable {m : Matcher} {t e : Text}

theorem behind_append {start : Text} (hne : start ≠ []) (hstart : start.any Text.isLineEnd = false)
    (he : ∀ c ∈ e, Text.isLineEnd c = true) :
    behind start (t ++ e) = (behind start t).map (· ++ e) := by
  have hsame : Line.startsWith (t ++ e) start = Line.startsWith t start :=
    Line.startsWith_append hstart he
  rw [Line.startsWith, Line.startsWith] at hsame
  simp only [behind]
  change (if start.isPrefixOf (Line.trimmed (t ++ e)) = true then _ else _) =
    Option.map _ (if start.isPrefixOf (Line.trimmed t) = true then _ else _)
  rw [hsame]
  split
  · next hfront =>
      have hlength : start.length ≤ (Text.trimLeft t).length :=
        (List.isPrefixOf_iff_prefix.mp hfront).length_le
      have htext := Line.trimmed_append (Line.not_isBlank_of_startsWith hne hfront) e
      rw [Line.trimmed, Line.trimmed] at htext
      rw [htext, List.drop_append_of_le_length hlength]
      rfl
  · rfl

theorem not_isLanguageChar_of_isLineEnd {c : Char} (h : Text.isLineEnd c = true) :
    isLanguageChar c = false := by
  rcases (Bool.or_eq_true _ _).mp h with h | h <;> rw [beq_iff_eq.mp h] <;> rfl

section LineEnd

variable (he : ∀ c ∈ e, Text.isLineEnd c = true)

include he

/-- The name of a language and the blanks behind it do not depend on the end of the line. -/
theorem languageName_append (t : Text) :
    (t ++ e).takeWhile isLanguageChar = t.takeWhile isLanguageChar ∧
      ((t ++ e).dropWhile isLanguageChar).all isBlank =
        (t.dropWhile isLanguageChar).all isBlank := by
  have hblank : e.all isBlank = true := List.all_eq_true.mpr (Line.blanks_of_lineEnds he)
  have hstop : e.takeWhile isLanguageChar = [] ∧ e.dropWhile isLanguageChar = e := by
    cases e with
    | nil => exact ⟨rfl, rfl⟩
    | cons c e =>
        have hc := not_isLanguageChar_of_isLineEnd (he c List.mem_cons_self)
        rw [List.takeWhile_cons, List.dropWhile_cons, hc]
        exact ⟨rfl, rfl⟩
  refine ⟨?_, ?_⟩
  · rw [List.takeWhile_append, hstop.1, List.append_nil]
    split
    · next hall => rw [(List.takeWhile_prefix _).eq_of_length hall]
    · rfl
  · rw [List.dropWhile_append, hstop.2]
    split
    · next hnil =>
        rw [List.isEmpty_iff.mp hnil, hblank]
        rfl
    · rw [List.all_append, hblank, Bool.and_true]

theorem languageOf_append (t : Text) : languageOf (t ++ e) = languageOf t := by
  simp only [languageOf, Option.bind_eq_bind]
  rw [behind_append (by decide) (by decide) he, Option.bind_map]
  refine Option.bind_congr fun u _ => ?_
  rw [Function.comp, behind_append (by decide) (by decide) he, Option.bind_map]
  refine Option.bind_congr fun u _ => ?_
  rw [Function.comp, behind_append (by decide) (by decide) he, Option.bind_map]
  refine Option.bind_congr fun u _ => ?_
  obtain ⟨e', he', htext⟩ := Line.exists_drop_trimmed_append he u 0
  rw [Function.comp, show Text.trimLeft (u ++ e) = Text.trimLeft u ++ e' from htext,
    (languageName_append he' _).1, (languageName_append he' _).2]

theorem fenceOf_append (t : Text) : fenceOf (t ++ e) = fenceOf t := by
  rw [fenceOf, fenceOf, Line.startsWith_append (by decide) he,
    Line.startsWith_append (by decide) he]

theorem rest_bare_append (n : Nat) : (m.bare (t ++ e)).rest n = (m.bare t).rest n := by
  obtain ⟨e', he', hdrop⟩ := Line.exists_drop_trimmed_append he t (m.stepMark t).length
  have hrest := Line.rest_append he' ((Line.trimmed t).drop (m.stepMark t).length) n
  rw [Line.rest, trimmed_bare, stepMark_append he, hdrop, Line.rest, trimmed_bare]
  exact hrest

theorem readTitle_append {keywords : List Text} {kind : TokenKind}
    (hends : ∀ k ∈ keywords, k.any Text.isLineEnd = false) :
    m.readTitle kind keywords (t ++ e) = m.readTitle kind keywords t := by
  have hfind : keywords.find? (Line.startsWithTitle (t ++ e)) =
      keywords.find? (Line.startsWithTitle t) := by
    refine List.find?_congr fun k hk => ?_
    rw [Line.startsWithTitle, Line.startsWithTitle, Line.startsWith_append _ he]
    rw [List.any_append, hends k hk]
    rfl
  rw [readTitle, readTitle, hfind]
  cases h : keywords.find? (Line.startsWithTitle t) with
  | none => rfl
  | some keyword =>
      have htitle : Line.startsWithTitle t keyword = true := List.find?_some h
      have htext := Line.not_isBlank_of_startsWith (by simp) htitle
      rw [Option.map_some, Option.map_some, Line.rest_append he, Line.indent_append htext]

theorem readStep_append (hm : m.dialect ∈ Dialect.table) : m.readStep (t ++ e) = m.readStep t := by
  have hkeyword : ∀ k ∈ m.dialect.steps, k ∈ m.dialect.keywords :=
    fun k hk => List.mem_append_right _ hk
  have hfind : m.dialect.steps.find? (m.bare (t ++ e)).startsWith =
      m.dialect.steps.find? (m.bare t).startsWith := by
    refine List.find?_congr fun k hk => ?_
    rw [startsWith_bare, startsWith_bare, stepMark_append he,
      startsWith_behind_mark he (Dialect.no_line_end hm (hkeyword k hk))]
  rw [readStep_eq, readStep_eq, hfind]
  cases h : m.dialect.steps.find? (m.bare t).startsWith with
  | none => rfl
  | some keyword =>
      have hne := Dialect.keyword_ne_nil hm (hkeyword _ (List.mem_of_find?_eq_some h))
      have hbare := Line.not_isBlank_of_startsWith hne (List.find?_some h)
      have htext : Line.isBlank t = false := by
        rw [Line.isBlank_eq_false, trimmed_bare] at hbare
        rw [Line.isBlank_eq_false]
        intro hnil
        rw [hnil, List.drop_nil] at hbare
        exact hbare rfl
      rw [Option.map_some, Option.map_some, rest_bare_append he, stepMark_append he,
        Line.indent_append htext]

theorem readSeparator_append : m.readSeparator (t ++ e) = m.readSeparator t := by
  have hindent : ∀ f : Fence, Line.startsWith t f.text = true →
      Line.indent (t ++ e) = Line.indent t := by
    intro f hf
    refine Line.indent_append (Line.not_isBlank_of_startsWith ?_ hf) e
    cases f <;> decide
  have hstarts : ∀ f : Fence, Line.startsWith (t ++ e) f.text = Line.startsWith t f.text := by
    intro f
    refine Line.startsWith_append ?_ he
    cases f <;> decide
  rw [readSeparator, readSeparator]
  cases m.separator with
  | none =>
      rw [fenceOf_append he]
      cases hfence : fenceOf t with
      | none => rfl
      | some f =>
          dsimp only
          rw [Line.rest_append he, hindent f (fenceOf_eq_some hfence)]
  | some d =>
      dsimp only
      rw [hstarts]
      split
      · next h => rw [hindent _ h]
      · rfl

theorem readLanguage_append : m.readLanguage (t ++ e) = m.readLanguage t := by
  rw [readLanguage, readLanguage, languageOf_append he]
  cases h : languageOf t with
  | none => rfl
  | some name =>
      have htext := Line.not_isBlank_of_startsWith (by decide) (hash_of_languageOf h)
      dsimp only
      rw [Line.indent_append htext]

/-- What a line says in a description or in a doc string, once its end has been dropped. -/
theorem chomp_contentOf_append :
    Text.chomp (m.contentOf (t ++ e)) = Text.chomp (m.contentOf t) := by
  obtain ⟨e', he', hdedent⟩ := Line.exists_dedent_append he t m.indentToRemove
  rw [contentOf, contentOf, hdedent]
  cases m.separator with
  | none => exact Text.dropEnd_append _ he'
  | some fence =>
      rw [Option.isSome_some, if_pos rfl, if_pos rfl, Text.replace,
        Text.substitute_append (by decide) (by decide) he' (Nat.zero_le _)]
      exact Text.dropEnd_append _ he'

/-- How a line ends does not matter to what it is read as. -/
theorem readLine_append (hm : m.dialect ∈ Dialect.table) (kind : TokenKind) :
    m.readLine kind (t ++ e) = m.readLine kind t := by
  have htitle : ∀ keywords : List Text, keywords ⊆ m.dialect.keywords →
      m.verdictOf (m.readTitle kind keywords (t ++ e)) =
        m.verdictOf (m.readTitle kind keywords t) := by
    intro keywords hsub
    rw [readTitle_append he fun k hk => Dialect.no_line_end hm (hsub hk)]
  cases kind with
  | eof => rfl
  | empty => rw [readLine, readLine, Line.isBlank_append he]
  | comment =>
      rw [readLine, readLine, Line.startsWith_append (by decide) he, Text.chomp,
        Text.dropEnd_append _ he]
      rfl
  | tagLine =>
      rw [readLine, readLine, Line.startsWith_append (by decide) he]
      split
      · next h =>
          have htext := Line.not_isBlank_of_startsWith (by decide) h
          rw [Line.indent_append htext, Line.tags_append he htext]
      · rfl
  | tableRow =>
      rw [readLine, readLine, Line.startsWith_append (by decide) he]
      split
      · next h =>
          have htext := Line.not_isBlank_of_startsWith (by decide) h
          rw [Line.indent_append htext, Line.cells_append he htext]
      · rfl
  | featureLine | backgroundLine | scenarioLine | scenarioOutlineLine | examplesLine =>
      exact htitle _ (by
        intro k hk
        simp only [Dialect.keywords, List.mem_append, hk, true_or, or_true])
  | stepLine => rw [readLine, readLine, readStep_append he hm]
  | docStringSeparator => exact readSeparator_append he
  | language => exact readLanguage_append he
  | other => rw [readLine, readLine, chomp_contentOf_append he]

end LineEnd

end Matcher

end FeatureFile
