import FeatureFile.Matcher
import FeatureFile.Proofs.Pipes
import FeatureFile.Proofs.Trimming

/-!
# The columns of cells

The column of a cell is put together from three counts: the indent of the line, the position behind
the left pipe, where an escape counts as the two characters it is written with, and the blanks in
front of the text of the cell. The blanks are counted when the escapes have been resolved. A line
feed is a blank and is written with an escape, so each one in front of the text makes the column one
less than where the text stands. Nothing else does: the two counts agree on all other blanks, and
what stands behind the first character of the text has no influence.

`Table.leading` are the blanks in front of the text as they are written. `Matcher.cell_columns`
compares the column with the place behind them.
-/

namespace FeatureFile

/-- The escapes that can be written in a cell: what they stand for, and the character behind the
backslash. -/
def Table.escapes : List (Char × Char) := [('|', '|'), ('\\', '\\'), ('\n', 'n')]

/-- At that column, counted from one, the line has the character, or the backslash of an escape that
stands for it. -/
def Line.Shows (l : Line) (column : Nat) (c : Char) : Prop :=
  l[column - 1]? = some c ∨
    l[column - 1]? = some '\\' ∧ ∃ e, l[column]? = some e ∧ (c, e) ∈ Table.escapes

namespace Table

/-- The blanks in front of the text of a cell, as they are written. -/
def leading : Text → Text
  | '\\' :: 'n' :: cs => '\\' :: 'n' :: leading cs
  | c :: cs => if isBlank c then c :: leading cs else []
  | [] => []

theorem ne_of_isBlank {c : Char} (h : isBlank c = true) : c ≠ '|' ∧ c ≠ '\\' := by
  constructor <;> rintro rfl <;> cases h

/-- What begins with neither a blank nor an escaped line feed stands for a text that does not begin
with a blank, and shows its first character. -/
theorem decode_head {c : Char} {cs : Text} (hblank : isBlank c = false)
    (hfeed : ∀ ds, c = '\\' → cs ≠ 'n' :: ds) : ∃ d ds, decode (c :: cs) = d :: ds ∧
      isBlank d = false ∧ (c = d ∨ c = '\\' ∧ ∃ e, cs.head? = some e ∧ (d, e) ∈ escapes) := by
  by_cases hc : c = '\\'
  · subst hc
    cases cs with
    | nil => exact ⟨'\\', [], rfl, rfl, .inl rfl⟩
    | cons e cs =>
        have hn : e ≠ 'n' := fun he => hfeed cs rfl (by rw [he])
        rw [decode_escape, unescape, if_neg hn]
        by_cases he : e = '|' ∨ e = '\\'
        · rw [if_pos (by simpa using he)]
          refine ⟨e, decode cs, rfl, ?_, .inr ⟨rfl, e, rfl, ?_⟩⟩
          · rcases he with rfl | rfl <;> rfl
          · rcases he with rfl | rfl <;> simp [escapes]
        · rw [if_neg (by simpa using he)]
          exact ⟨'\\', e :: decode cs, rfl, rfl, .inl rfl⟩
  · exact ⟨c, decode cs, decode_plain hc cs, hblank, .inl rfl⟩

theorem indent_cons {c : Char} (h : isBlank c = true) (t : Text) :
    Text.indent (c :: t) = Text.indent t + 1 ∧ Text.trimLeft (c :: t) = Text.trimLeft t := by
  rw [Text.indent, Text.indent, Text.trimLeft, Text.trimLeft, List.takeWhile_cons_of_pos h,
    List.dropWhile_cons_of_pos h, List.length_cons]
  exact ⟨rfl, rfl⟩

/-- The written blanks are the indent of what a text stands for. Only an escape makes a difference
between the two, and it has one backslash. -/
theorem indent_decode (t : Text) :
    Text.indent (decode t) + (leading t).count '\\' = (leading t).length ∧
      Text.trimLeft (decode t) = decode (t.drop (leading t).length) := by
  fun_induction leading t with
  | case1 cs ih =>
      have hcons := indent_cons (c := '\n') rfl (decode cs)
      rw [decode, hcons.1, hcons.2]
      refine ⟨?_, ih.2⟩
      rw [List.count_cons_self, List.count_cons_of_ne (by decide), List.length_cons,
        List.length_cons]
      omega
  | case2 c cs hfeed hblank ih =>
      have hcons := indent_cons hblank (decode cs)
      have hc := (ne_of_isBlank hblank).2
      rw [decode_plain hc, hcons.1, hcons.2, List.count_cons_of_ne hc]
      refine ⟨?_, ih.2⟩
      rw [List.length_cons]
      omega
  | case3 c cs hfeed hblank =>
      obtain ⟨d, ds, hdecode, hd, _⟩ := decode_head (Bool.eq_false_iff.mpr hblank)
        fun ds hc hcs => hfeed ds hc hcs
      rw [List.length_nil, List.drop_zero, hdecode, Text.trimLeft_of_head hd, Text.indent,
        List.takeWhile_cons_of_neg (by simp [hd])]
      exact ⟨rfl, rfl⟩
  | case4 => exact ⟨rfl, rfl⟩

/-- Behind the written blanks the first character of the text is shown. -/
theorem shows_decode {t : Text} {d : Char} (h : (Text.trimLeft (decode t)).head? = some d) :
    t[(leading t).length]? = some d ∨ t[(leading t).length]? = some '\\' ∧
      ∃ e, t[(leading t).length + 1]? = some e ∧ (d, e) ∈ escapes := by
  fun_induction leading t with
  | case1 cs ih =>
      rw [decode, (indent_cons rfl _).2] at h
      exact ih h
  | case2 c cs hfeed hblank ih =>
      rw [decode_plain (ne_of_isBlank hblank).2, (indent_cons hblank _).2] at h
      exact ih h
  | case3 c cs hfeed hblank =>
      obtain ⟨d', ds, hdecode, hd, hshows⟩ := decode_head (Bool.eq_false_iff.mpr hblank)
        fun ds hc hcs => hfeed ds hc hcs
      rw [hdecode, Text.trimLeft_of_head hd] at h
      cases h
      rcases hshows with rfl | ⟨rfl, e, he, hmem⟩
      · exact .inl rfl
      · refine .inr ⟨rfl, e, ?_, hmem⟩
        rw [← he, List.head?_eq_getElem?]
        rfl
  | case4 => cases h

theorem getElem?_of_between {t : Text} {i j k : Nat} {c : Char} (h : (t.between i j)[k]? = some c) :
    t[i + 1 + k]? = some c := by
  rw [Text.between, List.getElem?_drop] at h
  rw [List.getElem?_take] at h
  split at h
  · exact h
  · cases h

end Table

/-- A text is its indent, what is left of it when it is trimmed, and blanks. -/
theorem Text.exists_trim (t : Text) : ∃ front back, t = front ++ (trim t ++ back) ∧
    front.length = indent t ∧ (∀ c ∈ front, isBlank c = true) ∧ ∀ c ∈ back, isBlank c = true := by
  obtain ⟨back, hback, hblank⟩ := exists_dropEnd isBlank (trimLeft t)
  refine ⟨t.takeWhile isBlank, back, ?_, rfl, fun c hc => List.mem_takeWhile_imp hc, hblank⟩
  conv_lhs => rw [← List.takeWhile_append_dropWhile (p := isBlank) (l := t)]
  exact congrArg _ hback

namespace Line

open Table

variable {l : Line}

/-- The pipes of a line are those of its row, moved by the indent. -/
theorem pipes_eq (l : Line) : pipes l = (pipes (Text.trim l)).map (· + l.indent) := by
  obtain ⟨front, back, hl, hindent, hfront, hback⟩ := Text.exists_trim l
  conv_lhs => rw [hl]
  rw [pipes_plain_append fun c hc => ne_of_isBlank (hfront c hc),
    pipes_append_plain _ fun h => (ne_of_isBlank (hback _ h)).1 rfl, hindent]
  rfl

theorem between_eq {i j : Nat} (hj : j ≤ (Text.trim l).length) :
    Text.between l (i + l.indent) (j + l.indent) = (Text.trim l).between i j := by
  obtain ⟨front, back, hl, hindent, _⟩ := Text.exists_trim l
  have hmoved := between_append front (Text.trim l ++ back) i j
  rw [← hl, hindent] at hmoved
  refine hmoved.trans ?_
  rw [Text.between, Text.between, List.take_append_of_le_length hj]

/-- The cells of a line stand between the pipes of the line. -/
theorem cell_between_pipes {items : List Item} {item : Item} {k : Nat} (h : l.cells = some items)
    (hitem : items[k]? = some item) : ∃ i j, (pipes l)[k]? = some i ∧ (pipes l)[k + 1]? = some j ∧
      item.column = i + 2 + Text.indent (decode (l.between i j)) ∧
      item.text = Text.trim (decode (l.between i j)) := by
  obtain ⟨found, hfound, rfl⟩ := Option.map_eq_some_iff.mp h
  have heven : ¬ Odd (Text.backslashes (Text.trim l)) := by
    rw [← splitCells_eq_none, hfound]
    exact Option.some_ne_none found
  rw [splitCells_of_even heven] at hfound
  obtain rfl := Option.some.inj hfound
  rw [List.getElem?_map, Option.map_eq_some_iff] at hitem
  obtain ⟨cell, hcell, rfl⟩ := hitem
  obtain ⟨i, j, hi, hj, rfl⟩ := List.getElem?_zipWith_eq_some.mp hcell
  rw [List.getElem?_tail] at hj
  have hlength : j ≤ (Text.trim l).length := (lt_of_mem_pipes (List.mem_of_getElem? hj)).le
  refine ⟨i + l.indent, j + l.indent, ?_, ?_, ?_, ?_⟩
  · rw [pipes_eq, List.getElem?_map, hi]
    rfl
  · rw [pipes_eq, List.getElem?_map, hj]
    rfl
  · rw [between_eq hlength]
    simp only []
    omega
  · rw [between_eq hlength]

/-- The column, counted from one, at which the text between two pipes begins. -/
def textColumn (l : Line) (i j : Nat) : Nat := i + 2 + (leading (l.between i j)).length

theorem shows_textColumn {i j : Nat} {c : Char}
    (h : (Text.trimLeft (decode (l.between i j))).head? = some c) :
    l.Shows (l.textColumn i j) c := by
  have hcolumn : l.textColumn i j - 1 = i + 1 + (leading (l.between i j)).length := by
    rw [textColumn]
    omega
  have hbehind : l.textColumn i j = i + 1 + ((leading (l.between i j)).length + 1) := by
    rw [textColumn]
    omega
  rcases shows_decode h with hshown | ⟨hshown, e, he, hmem⟩
  · refine .inl ?_
    rw [hcolumn]
    exact getElem?_of_between hshown
  · refine .inr ⟨?_, e, ?_, hmem⟩
    · rw [hcolumn]
      exact getElem?_of_between hshown
    · rw [hbehind]
      exact getElem?_of_between he

end Line

namespace Matcher

open Table

variable {m next : Matcher} {l : Line} {reading : Reading}

theorem cells_of_tableRow (h : m.readLine .tableRow l = .yes reading next) :
    l.cells = some reading.items := by
  rw [readLine] at h
  split at h
  · split at h
    · cases h
    · next items hitems =>
        cases h
        exact hitems
  · cases h

/-- The text of a cell is shown where it begins, which is where the column of the cell points if and
only if no line feed is written in front of it. Each one that is makes the column one less. -/
theorem cell_columns (h : m.readLine .tableRow l = .yes reading next) {item : Item} {k : Nat}
    {c : Char} (hitem : reading.items[k]? = some item) (hc : item.text.head? = some c) :
    ∃ i j, (pipes l)[k]? = some i ∧ (pipes l)[k + 1]? = some j ∧ l.Shows (l.textColumn i j) c ∧
      item.column + (leading (l.between i j)).count '\\' = l.textColumn i j ∧
      (item.column = l.textColumn i j ∧ l.Shows item.column c ↔
        '\\' ∉ leading (l.between i j)) := by
  obtain ⟨i, j, hi, hj, hcolumn, htext⟩ := Line.cell_between_pipes (cells_of_tableRow h) hitem
  have hhead : (Text.trimLeft (decode (l.between i j))).head? = some c := by
    obtain ⟨back, hback⟩ := Text.dropEnd_isPrefix isBlank (Text.trimLeft (decode (l.between i j)))
    rw [htext] at hc
    rw [← hback, List.head?_append, show (Text.dropEnd _ _).head? = some c from hc]
    rfl
  have hshows := Line.shows_textColumn hhead
  have hshift : item.column + (leading (l.between i j)).count '\\' = l.textColumn i j := by
    rw [hcolumn, Line.textColumn, ← (indent_decode (l.between i j)).1]
    omega
  refine ⟨i, j, hi, hj, hshows, hshift, ?_⟩
  rw [← List.count_eq_zero]
  constructor
  · rintro ⟨hsame, _⟩
    omega
  · intro hnone
    have hsame : item.column = l.textColumn i j := by omega
    exact ⟨hsame, hsame ▸ hshows⟩

/-- An indented row with escaped characters in front of its texts. -/
def brokenRow : Line := "  |\\|a| \\n\\n \\\\n|\n".toList

theorem cell_columns_brokenRow : ∃ reading,
    (new .plain .english).readLine .tableRow brokenRow = .yes reading (new .plain .english) ∧
      reading.items = [⟨4, "|a".toList⟩, ⟨12, "\\n".toList⟩] ∧
      brokenRow.textColumn 2 6 = 4 ∧ brokenRow.textColumn 6 16 = 14 ∧
      (∃ i j, (pipes brokenRow)[1]? = some i ∧ (pipes brokenRow)[2]? = some j ∧
        brokenRow.Shows (brokenRow.textColumn i j) '\\' ∧
        12 + (leading (brokenRow.between i j)).count '\\' = brokenRow.textColumn i j ∧
        (12 = brokenRow.textColumn i j ∧ brokenRow.Shows 12 '\\' ↔
          '\\' ∉ leading (brokenRow.between i j))) := by
  let reading : Reading :=
    { kind := .tableRow, indent := 2, items := [⟨4, "|a".toList⟩, ⟨12, "\\n".toList⟩],
      dialect := Dialect.english.name }
  have hread : (new .plain .english).readLine .tableRow brokenRow =
      .yes reading (new .plain .english) := by decide +kernel
  have hitem : reading.items[1]? = some ⟨12, "\\n".toList⟩ := rfl
  exact ⟨reading, hread, rfl, by decide, by decide, cell_columns hread hitem rfl⟩

/-- A line feed in front of a text: the column points into the escape. -/
theorem column_short_of_text : ∃ reading,
    (new .plain .english).readLine .tableRow "|\\na|".toList = .yes reading (new .plain .english) ∧
      reading.items = [⟨3, ['a']⟩] ∧ ¬ Line.Shows "|\\na|".toList 3 'a' := by
  refine ⟨{ kind := .tableRow, items := [⟨3, ['a']⟩], dialect := Dialect.english.name }, ?_, rfl,
    ?_⟩
  · decide +kernel
  · rintro (h | ⟨h, _⟩) <;> revert h <;> decide

end Matcher

end FeatureFile
