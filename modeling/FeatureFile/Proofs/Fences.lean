import FeatureFile.Proofs.Insertion
import FeatureFile.Proofs.Replacing

/-!
# What a doc string can hold

Between separators of quotes any text can be written, if the separators in it are escaped. Escaping a
line and restoring it gives the line back (`Fence.restore_escape`), unless there was an escaped
separator in it to begin with. And an escaped line does not start with a separator, however deep it is
indented, so that it does not end the doc string (`Fence.not_front_escape`).

The two do not follow from each other. Where quotes come in fours or fives, quotes that are left alone
stand behind an escaped separator, and an escaped line does have three quotes in a row.
-/

namespace FeatureFile

namespace Text

variable {old : Text}

theorem not_front_of_mentions {c : Char} {t : Text} (h : mentions old (c :: t) = false) :
    ¬ old <+: c :: t ∧ mentions old t = false := by
  obtain ⟨hfront, hrest⟩ := (Bool.or_eq_false_iff).mp h
  refine ⟨fun hold => ?_, hrest⟩
  rw [List.isPrefixOf_iff_prefix.mpr hold] at hfront
  cases hfront

end Text

namespace Fence

/-- A line as it is written in a doc string, with its separators escaped. -/
def escape (t : Text) : Text := Text.replace quotes.text escaped t

/-- A line with its escaped separators restored. -/
def restore (t : Text) : Text := Text.replace escaped quotes.text t

theorem quotes_text : quotes.text = ['"', '"', '"'] := rfl

theorem escaped_eq : escaped = ['\\', '"', '\\', '"', '\\', '"'] := rfl

/-- There are three ways to go on with a text: it is at its end, a separator is next, or a character
is. -/
theorem escape_cases (t : Text) :
    t = [] ∨
      (∃ r, t = '"' :: '"' :: '"' :: r ∧
        escape t = '\\' :: '"' :: '\\' :: '"' :: '\\' :: '"' :: escape r) ∨
      ∃ c r, t = c :: r ∧ ¬ quotes.text <+: t ∧ escape t = c :: escape r := by
  by_cases h : quotes.text <+: t
  · obtain ⟨r, rfl⟩ := h
    exact .inr (.inl ⟨r, rfl, Text.replace_front (by decide) r⟩)
  · cases t with
    | nil => exact .inl rfl
    | cons c r => exact .inr (.inr ⟨c, r, rfl, h, Text.replace_cons h⟩)

/-- A quote in an escaped text that is not behind a backslash was there before, and begins no
separator. -/
theorem exists_of_escape_quote {t u : Text} (h : escape t = '"' :: u) :
    ∃ r, t = '"' :: r ∧ ¬ quotes.text <+: t ∧ u = escape r := by
  obtain rfl | ⟨r, rfl, hr⟩ | ⟨c, r, rfl, hnot, hr⟩ := escape_cases t
  · cases h
  · rw [hr] at h
    cases h
  · rw [hr] at h
    cases h
    exact ⟨r, rfl, hnot, rfl⟩

theorem not_front_escape (t : Text) : ¬ quotes.text <+: escape t := by
  rintro ⟨u, hu⟩
  obtain ⟨r, rfl, hnot, hr⟩ := exists_of_escape_quote hu.symm
  obtain ⟨r', rfl, _, hr'⟩ := exists_of_escape_quote hr.symm
  obtain ⟨r'', rfl, _, _⟩ := exists_of_escape_quote hr'.symm
  exact hnot (List.prefix_append _ r'')

/-- Behind a quote that is not escaped, a backslash was there before: if it came from a separator,
there would have been four quotes in a row, and the separator would have begun with the first. -/
theorem exists_of_escape_pair {t u : Text} (h : escape t = '"' :: '\\' :: u) :
    ∃ r, t = '"' :: '\\' :: r ∧ u = escape r := by
  obtain ⟨r, rfl, hnot, hr⟩ := exists_of_escape_quote h
  obtain rfl | ⟨r', rfl, _⟩ | ⟨c, r', rfl, _, hr'⟩ := escape_cases r
  · cases hr
  · exact absurd (List.prefix_append quotes.text ('"' :: r')) hnot
  · rw [hr'] at hr
    cases hr
    exact ⟨r', rfl, rfl⟩

/-- Escaping makes no escaped separator out of a character and what is behind it. -/
theorem not_front_cons_escape {c : Char} {t : Text} (h : ¬ escaped <+: c :: t) :
    ¬ escaped <+: c :: escape t := by
  rintro ⟨u, hu⟩
  rw [escaped_eq] at hu
  obtain ⟨rfl, hrest⟩ := List.cons.inj hu
  obtain ⟨r, rfl, hr⟩ := exists_of_escape_pair hrest.symm
  obtain ⟨r', rfl, hr'⟩ := exists_of_escape_pair hr.symm
  obtain ⟨r'', rfl, _⟩ := exists_of_escape_quote hr'.symm
  exact h (List.prefix_append _ r'')

/-- A text with its separators escaped can be restored. -/
theorem restore_escape (t : Text) (h : Text.mentions escaped t = false) :
    restore (escape t) = t := by
  obtain rfl | ⟨r, rfl, hr⟩ | ⟨c, r, rfl, _, hr⟩ := escape_cases t
  · rfl
  · have hrest := (Text.not_front_of_mentions (Text.not_front_of_mentions
      (Text.not_front_of_mentions h).2).2).2
    rw [hr]
    exact (Text.replace_front (by decide) (escape r)).trans
      (congrArg (quotes.text ++ ·) (restore_escape r hrest))
  · obtain ⟨hfront, hrest⟩ := Text.not_front_of_mentions h
    rw [hr]
    exact (Text.replace_cons (not_front_cons_escape hfront)).trans
      (congrArg (c :: ·) (restore_escape r hrest))
termination_by t.length

theorem trimLeft_escape (t : Text) : Text.trimLeft (escape t) = escape (Text.trimLeft t) := by
  induction t with
  | nil => rfl
  | cons c cs ih =>
      cases hc : isBlank c with
      | true =>
          have hnot : ¬ quotes.text <+: c :: cs := by
            rintro ⟨u, hu⟩
            rw [quotes_text] at hu
            cases hu
            cases hc
          have hcons : escape (c :: cs) = c :: escape cs := Text.replace_cons hnot
          rw [hcons, Text.trimLeft, List.dropWhile_cons_of_pos hc, Text.trimLeft,
            List.dropWhile_cons_of_pos hc]
          exact ih
      | false =>
          rw [Text.trimLeft_of_head hc]
          obtain h | ⟨r, _, hr⟩ | ⟨d, r, h, _, hr⟩ := escape_cases (c :: cs)
          · cases h
          · rw [hr]
            exact Text.trimLeft_of_head rfl _
          · cases h
            rw [hr]
            exact Text.trimLeft_of_head hc _

end Fence

/-! ## Lines of a doc string -/

namespace Line

/-- A text behind that many spaces. -/
def indented (n : Nat) (t : Text) : Line := List.replicate n ' ' ++ t

variable (n : Nat) (t : Text)

theorem trimmed_indented : trimmed (indented n t) = Text.trimLeft t := by
  rw [trimmed, indented, Text.trimLeft_append,
    if_pos (Text.trimLeft_blanks fun _ hc => List.eq_of_mem_replicate hc ▸ rfl)]

theorem takeWhile_indented : (indented n t).takeWhile FeatureFile.isBlank =
    List.replicate n ' ' ++ t.takeWhile FeatureFile.isBlank :=
  List.takeWhile_append_of_pos fun _ hc => List.eq_of_mem_replicate hc ▸ rfl

theorem indent_indented {c : Char} (hc : FeatureFile.isBlank c = false) :
    indent (indented n (c :: t)) = n := by
  rw [indent, Text.indent, takeWhile_indented, List.takeWhile_cons_of_neg (by simp [hc]),
    List.append_nil, List.length_replicate]

theorem dedent_indented : dedent (indented n t) n = t := by
  have hroom : n ≤ indent (indented n t) := by
    rw [indent, Text.indent, takeWhile_indented, List.length_append, List.length_replicate]
    exact Nat.le_add_right n _
  rw [dedent, if_neg (Nat.not_lt.mpr hroom), indented, List.drop_left' List.length_replicate]

end Line

namespace Matcher

variable {m : Matcher} {n : Nat} {c t : Text}

/-- A separator with something behind it opens a doc string. -/
theorem readSeparator_opener (hdoc : m.separator = none) (hc : Text.trim c = c) :
    m.readSeparator (.indented n (Fence.quotes.text ++ c)) =
      .yes { kind := .docStringSeparator, text := some c, indent := n, dialect := m.dialect.name }
        (m.enter .quotes n) := by
  have htrimmed : (Line.indented n (Fence.quotes.text ++ c)).trimmed = Fence.quotes.text ++ c :=
    (Line.trimmed_indented n _).trans (Text.trimLeft_of_head rfl _)
  have hfence : fenceOf (.indented n (Fence.quotes.text ++ c)) = some .quotes := by
    rw [fenceOf, Line.startsWith, htrimmed,
      if_pos (List.isPrefixOf_iff_prefix.mpr (List.prefix_append _ c))]
  have hindent : (Line.indented n (Fence.quotes.text ++ c)).indent = n := Line.indent_indented n _ rfl
  rw [readSeparator, hdoc, hfence]
  simp only [Line.rest, htrimmed, List.drop_left, hc, hindent]

/-- Nothing else is made of it that is tried before. -/
theorem readLine_opener (hm : m.dialect ∈ Dialect.table) {kind : TokenKind}
    (hkind : kind ∈ [TokenKind.stepLine, .eof, .tableRow]) :
    m.readLine kind (.indented n (Fence.quotes.text ++ c)) = .no := by
  have hhead : (Line.indented n (Fence.quotes.text ++ c)).trimmed.head? = some '"' := by
    rw [Line.trimmed_indented]
    exact congrArg List.head? (Text.trimLeft_of_head rfl _)
  simp only [List.mem_cons, List.not_mem_nil, or_false] at hkind
  obtain rfl | rfl | rfl := hkind
  · refine verdictOf_eq_no.mpr (readStep_eq_none_iff.mpr fun word hword => ?_)
    have hmark : m.stepMark (.indented n (Fence.quotes.text ++ c)) = [] := by
      rw [stepMark, Line.startsWith_of_head_ne hhead rfl (by decide),
        Line.startsWith_of_head_ne hhead rfl (by decide)]
      cases m.style <;> rfl
    obtain ⟨d, ds, rfl, _, hquote⟩ := Dialect.exists_head hm (List.mem_append_right _ hword)
    rw [hmark, List.length_nil, List.drop_zero, Line.startsWith_trimmed]
    exact Line.startsWith_of_head_ne hhead rfl hquote
  · rfl
  · rw [readLine, Line.startsWith_of_head_ne hhead rfl (by decide)]
    rfl

/-- An escaped line does not end the doc string. -/
theorem readSeparator_content (hdoc : m.separator = some .quotes) :
    m.readSeparator (.indented n (Fence.escape t)) = .no := by
  rw [readSeparator, hdoc]
  refine if_neg ?_
  rw [Line.startsWith, Line.trimmed_indented, Fence.trimLeft_escape, List.isPrefixOf_iff_prefix]
  exact Fence.not_front_escape _

/-- The line is restored when it is read. -/
theorem contentOf_content (hdoc : m.separator = some .quotes) (hindent : m.indentToRemove = n)
    (ht : Text.mentions Fence.escaped t = false) :
    m.contentOf (.indented n (Fence.escape t)) = t := by
  rw [contentOf, hdoc, hindent, Line.dedent_indented]
  exact Fence.restore_escape t ht

/-- The separator ends the doc string. -/
theorem readSeparator_closer (hdoc : m.separator = some .quotes) :
    m.readSeparator (.indented n Fence.quotes.text) =
      .yes { kind := .docStringSeparator, indent := n, dialect := m.dialect.name } m.leave := by
  have htrimmed : (Line.indented n Fence.quotes.text).trimmed = Fence.quotes.text :=
    (Line.trimmed_indented n _).trans (Text.trimLeft_of_head rfl _)
  have hindent : (Line.indented n Fence.quotes.text).indent = n := Line.indent_indented n _ rfl
  rw [readSeparator, hdoc]
  simp only [Line.startsWith, htrimmed, hindent]
  rfl

end Matcher

end FeatureFile
