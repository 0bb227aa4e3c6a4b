import FeatureFile.Reformat
import FeatureFile.Proofs.Trimming
import FeatureFile.Proofs.Verdict

/-!
# How lines are read

What a matcher makes of a line, said in terms of how the line starts. A step is looked for behind the
mark that switches it off (`Matcher.startsWith_bare`), and what a reading keeps of its line is trimmed.
The characters that end a line do not matter: a line that is no title, no step and no row is none with
another ending either (`Matcher.readLine_eq_no_iff`).
-/

namespace FeatureFile

/-- On one line, and without blanks around. -/
structure Text.Tidy (t : Text) : Prop where
  trim : Text.trim t = t
  newline : '\n' ∉ t

theorem Text.OneLine.tidy {t : Text} (h : OneLine t) : Tidy (Text.trim t) :=
  ⟨Text.trim_trim t, h.newline_not_mem_trim⟩

namespace Line

variable {l : Line}

theorem rest_tidy (h : Text.OneLine (trimmed l)) (n : Nat) : (rest l n).Tidy :=
  (h.of_suffix (List.drop_suffix n _)).tidy

theorem tagsFrom_text (column : Nat) (ps : List Text) :
    (tagsFrom column ps).map Item.text = ps.map fun p => '@' :: Text.trim p := by
  induction ps generalizing column with
  | nil => rfl
  | cons p ps ih => rw [tagsFrom, List.map_cons, List.map_cons, ih]

theorem tags_text (l : Line) : (tags l).map Item.text =
    (Text.splitOn '@' (Text.trim l)).tail.map fun p => '@' :: Text.trim p :=
  tagsFrom_text _ _

end Line

namespace Matcher

variable {m : Matcher} {kind : TokenKind} {l : Line} {reading : Reading} {keywords : List Text}

theorem readTitle_eq_some (h : m.readTitle kind keywords l = some reading) :
    ∃ keyword ∈ keywords, reading.keyword = some keyword ∧
      reading.text = some (l.rest (keyword.length + 1)) ∧ reading.dialect = m.dialect.name := by
  obtain ⟨keyword, hfind, rfl⟩ := Option.map_eq_some_iff.mp h
  exact ⟨keyword, List.mem_of_find?_eq_some hfind, rfl, rfl, rfl⟩

theorem readTitle_eq_none_iff : m.readTitle kind keywords l = none ↔
    ∀ keyword ∈ keywords, l.startsWithTitle keyword = false := by
  rw [readTitle, Option.map_eq_none_iff, List.find?_eq_none]
  exact forall₂_congr fun _ _ => iff_of_eq (Bool.not_eq_true _)

theorem verdictOf_eq_no {o : Option Reading} : m.verdictOf o = .no ↔ o = none := by
  cases o <;> simp [verdictOf]

/-! ## Steps -/

/-- The marks of steps, that of a step which is not switched off included. -/
def marks : List Text := [[], "#".toList, "#?".toList]

/-- A step line without its mark. -/
def bare (m : Matcher) (l : Line) : Line :=
  if (m.stepMark l).isEmpty then l else Text.removeFirst (m.stepMark l) l

theorem readStep_eq (m : Matcher) (l : Line) : m.readStep l =
    (m.dialect.steps.find? (m.bare l).startsWith).map fun keyword =>
      { kind := .stepLine, text := some ((m.bare l).rest keyword.length),
        keyword := some (m.stepMark l ++ keyword), indent := l.indent, dialect := m.dialect.name } :=
  rfl

theorem stepMark_spec (m : Matcher) (l : Line) :
    m.stepMark l ∈ marks ∧ m.stepMark l <+: l.trimmed := by
  rw [stepMark]
  split
  · exact ⟨by decide, List.nil_prefix⟩
  · split
    · next h => exact ⟨by decide, List.isPrefixOf_iff_prefix.mp h⟩
    · split
      · next h => exact ⟨by decide, List.isPrefixOf_iff_prefix.mp h⟩
      · exact ⟨by decide, List.nil_prefix⟩

theorem trimmed_bare (m : Matcher) (l : Line) :
    (m.bare l).trimmed = Text.trimLeft (l.trimmed.drop (m.stepMark l).length) := by
  obtain ⟨hmarks, hfront⟩ := m.stepMark_spec l
  rw [bare]
  simp only [marks, List.mem_cons, List.not_mem_nil, or_false] at hmarks
  rcases hmarks with h | h | h <;> rw [h] at hfront ⊢
  · have hsame : Text.trimLeft (Text.trimLeft l) = Text.trimLeft l := List.dropWhile_idempotent _ _
    exact hsame.symm
  · exact Text.trimLeft_removeFirst rfl hfront
  · exact Text.trimLeft_removeFirst rfl hfront

/-- A step keyword is looked for behind the mark. -/
theorem startsWith_bare (m : Matcher) (l : Line) (keyword : Text) :
    (m.bare l).startsWith keyword =
      Line.startsWith (l.trimmed.drop (m.stepMark l).length) keyword := by
  rw [Line.startsWith, trimmed_bare]
  rfl

theorem trimmed_bare_suffix (m : Matcher) (l : Line) : (m.bare l).trimmed <:+ l := by
  rw [trimmed_bare]
  exact (List.dropWhile_suffix _).trans ((List.drop_suffix _ _).trans (List.dropWhile_suffix _))

theorem readStep_eq_some (h : m.readStep l = some reading) :
    ∃ mark ∈ marks, ∃ word ∈ m.dialect.steps, reading.keyword = some (mark ++ word) ∧
      reading.text = some ((m.bare l).rest word.length) := by
  rw [readStep_eq] at h
  obtain ⟨word, hfind, rfl⟩ := Option.map_eq_some_iff.mp h
  exact ⟨_, (m.stepMark_spec l).1, word, List.mem_of_find?_eq_some hfind, rfl, rfl⟩

theorem readStep_eq_none_iff : m.readStep l = none ↔
    ∀ word ∈ m.dialect.steps, Line.startsWith (l.trimmed.drop (m.stepMark l).length) word = false := by
  rw [readStep_eq, Option.map_eq_none_iff, List.find?_eq_none]
  refine forall₂_congr fun word _ => ?_
  rw [startsWith_bare, Bool.not_eq_true]

/-! ## The end of a line -/

section LineEnd

variable {t e : Text} (he : ∀ c ∈ e, Text.isLineEnd c = true)

include he

theorem stepMark_append : m.stepMark (t ++ e) = m.stepMark t := by
  rw [stepMark, stepMark, Line.startsWith_append (by decide) he, Line.startsWith_append (by decide) he]

theorem startsWith_behind_mark {word : Text} (hword : word.any Text.isLineEnd = false) :
    Line.startsWith ((Line.trimmed (t ++ e)).drop (m.stepMark t).length) word =
      Line.startsWith ((Line.trimmed t).drop (m.stepMark t).length) word := by
  obtain ⟨e', he', hdrop⟩ := Line.exists_drop_trimmed_append he t (m.stepMark t).length
  rw [hdrop, Line.startsWith_append hword he']

/-- What is not read as a token of some kind is not read so with another end of the line either. -/
theorem readLine_eq_no_iff (hdialect : m.dialect = .english) (hstyle : m.style = .commentedSteps)
    (hkind : kind ∉ [TokenKind.docStringSeparator, .language, .other]) :
    m.readLine kind (t ++ e) = .no ↔ editing.readLine kind t = .no := by
  have htitle : ∀ keywords : List Text, (∀ w ∈ keywords, w.any Text.isLineEnd = false) →
      (m.verdictOf (m.readTitle kind keywords (t ++ e)) = .no ↔
        editing.verdictOf (editing.readTitle kind keywords t) = .no) := by
    intro keywords hends
    simp only [verdictOf_eq_no, readTitle_eq_none_iff]
    refine forall₂_congr fun w hw => ?_
    rw [Line.startsWithTitle, Line.startsWithTitle, Line.startsWith_append _ he]
    rw [List.any_append, hends w hw]
    rfl
  have hstart : ∀ (c : Char) (v w : Verdict), Text.isLineEnd c = false → v ≠ .no → w ≠ .no →
      ((if Line.startsWith (t ++ e) [c] then v else .no) = Verdict.no ↔
        (if Line.startsWith t [c] then w else .no) = Verdict.no) := by
    intro c v w hc hv hw
    rw [Line.startsWith_append (by simpa using hc) he]
    split
    · exact iff_of_false hv hw
    · exact Iff.rfl
  cases kind with
  | eof => exact Iff.rfl
  | empty =>
      rw [readLine, readLine, Line.isBlank_append he]
      split
      · exact iff_of_false Verdict.noConfusion Verdict.noConfusion
      · exact Iff.rfl
  | comment | tagLine => exact hstart _ _ _ rfl Verdict.noConfusion Verdict.noConfusion
  | tableRow =>
      refine hstart _ _ _ rfl ?_ ?_
      · split <;> exact Verdict.noConfusion
      · split <;> exact Verdict.noConfusion
  | featureLine | backgroundLine | scenarioLine | scenarioOutlineLine | examplesLine =>
      rw [readLine, hdialect]
      exact htitle _ (by decide)
  | stepLine =>
      have hends : ∀ w ∈ Dialect.english.steps, w.any Text.isLineEnd = false := by decide
      have hmark : m.stepMark t = editing.stepMark t := by
        rw [stepMark, hstyle]
        rfl
      rw [readLine, verdictOf_eq_no, readStep_eq_none_iff, hdialect, readLine, verdictOf_eq_no,
        readStep_eq_none_iff]
      refine forall₂_congr fun w hw => ?_
      rw [stepMark_append he, startsWith_behind_mark he (hends w hw), hmark]
  | docStringSeparator | language | other => simp at hkind

end LineEnd

end Matcher

end FeatureFile
