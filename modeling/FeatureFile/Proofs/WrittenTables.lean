import FeatureFile.Proofs.CellColumns
import FeatureFile.Proofs.WrittenPhrases

/-!
# Tables as they are written

A table is written with a line for each row. Every cell is escaped and then filled up to the width
of its column, which is the greatest length of a cell in it, escapes included. So the pipes of a row
that are not escaped stand where the widths say (`Table.edges`), in all rows at the same positions,
and whatever is in the cells, the lines are equally long. Between them a row is cut as it was put
together, because an escaped cell is never cut and what follows it is not taken for escaped: runs of
backslashes in a cell are written with an even number of them.

`Writer.table_lines_up` puts this together with `splitCellsFrom_row`, by which the cells of a
written row are read back. It holds for all cells without blanks around them, and for any margin
that there is room for.
-/

namespace FeatureFile

/-- The cells of a row have these values. -/
def Draft.Row.Holds (r : Draft.Row) (values : List Text) : Prop :=
  ∃ cells, r.cells = some cells ∧ List.Forall₂ (fun c v => c.value = some v) cells values

theorem Text.cons_join (sep : Char) {ts : List Text} (h : ts ≠ []) :
    sep :: join [sep] ts = (ts.map (sep :: ·)).flatten := by
  induction ts with
  | nil => exact absurd rfl h
  | cons t ts ih =>
      cases ts with
      | nil => simp [join]
      | cons u ts =>
          rw [join, List.map_cons, List.flatten_cons, ← ih (List.cons_ne_nil _ _)]
          simp

theorem Written.all_texts (ts : List Text) :
    Written.all (ts.map fun t => { text := t }) = { text := ts.flatten } := by
  induction ts with
  | nil => rfl
  | cons t ts ih =>
      rw [List.map_cons, Written.all, ih]
      rfl

namespace Table

/-! ## Widths -/

/-- The columns are wide enough for the cells of a row. -/
def Fits (widths : List Nat) (cells : List Text) : Prop :=
  List.Forall₂ (fun w (c : Text) => c.length ≤ w) widths cells

/-- Columns get wider: what fitted before still fits, and so does the row they were widened for. -/
theorem widen_fits {ws ws' : List Nat} {ts : List Text} (h : widen ws ts = some ws') :
    Fits ws' ts ∧ ∀ cells, Fits ws cells → Fits ws' cells := by
  induction ts generalizing ws ws' with
  | nil =>
      cases ws with
      | nil =>
          cases h
          exact ⟨.nil, fun _ hcells => hcells⟩
      | cons w ws => cases h
  | cons t ts ih =>
      cases ws with
      | nil => cases h
      | cons w ws =>
          rw [widen] at h
          obtain ⟨wider, hwider, rfl⟩ := Option.map_eq_some_iff.mp h
          obtain ⟨hrow, hkeeps⟩ := ih hwider
          refine ⟨.cons (Nat.le_max_right _ _) hrow, fun cells hcells => ?_⟩
          cases hcells with
          | cons hfirst hrest =>
              exact .cons (hfirst.trans (Nat.le_max_left _ _)) (hkeeps _ hrest)

theorem widenAll_fits {rows : List (List Text)} {ws ws' : List Nat}
    (h : widenAll ws rows = .ok ws') :
    (∀ cells, Fits ws cells → Fits ws' cells) ∧ ∀ row ∈ rows, Fits ws' row := by
  induction rows generalizing ws with
  | nil =>
      cases h
      exact ⟨fun _ hcells => hcells, List.forall_mem_nil _⟩
  | cons row rows ih =>
      rw [widenAll] at h
      split at h
      · cases h
      · next wider hwider =>
          obtain ⟨hrow, hkeeps⟩ := widen_fits hwider
          obtain ⟨hlater, hrows⟩ := ih h
          exact ⟨fun cells hcells => hlater _ (hkeeps _ hcells),
            List.forall_mem_cons.mpr ⟨hlater _ hrow, hrows⟩⟩

theorem columnWidths_fits {rows : List (List Text)} {ws : List Nat}
    (h : columnWidths rows = .ok ws) :
    ∀ row ∈ rows, Fits ws row := by
  cases rows with
  | nil => cases h
  | cons row rows => exact (widenAll_fits h).2

/-! ## Pipes -/

/-- The positions of the pipes around and between columns of the given widths. -/
def edges : List Nat → List Nat
  | [] => [0]
  | w :: ws => 0 :: (edges ws).map (· + (w + 1))

/-- An escaped character is not cut. -/
theorem pipes_escapeChar (c : Char) (row : Text) :
    pipes (escapeChar c ++ row) = (pipes row).map (· + (escapeChar c).length) := by
  rw [escapeChar]
  split
  · exact pipes_escape _ row
  · next hescape =>
      split
      · exact pipes_escape _ row
      · split
        · exact pipes_escape _ row
        · next hpipe => exact pipes_plain hpipe hescape row

theorem pipes_escapeCell (v row : Text) :
    pipes (escapeCell v ++ row) = (pipes row).map (· + (escapeCell v).length) := by
  induction v with
  | nil => exact (List.map_id _).symm
  | cons c v ih =>
      have hcons : escapeCell (c :: v) = escapeChar c ++ escapeCell v := List.flatMap_cons
      rw [hcons, List.append_assoc, pipes_escapeChar, ih, List.map_map, List.length_append]
      refine List.map_congr_left fun i _ => ?_
      simp only [Function.comp_apply]
      omega

theorem length_pad {w : Nat} {t : Text} (h : t.length ≤ w) : (Writer.pad w t).length = w := by
  rw [Writer.pad, List.length_append, List.length_replicate]
  omega

theorem pipes_pad {w : Nat} {v : Text} (h : (escapeCell v).length ≤ w) (row : Text) :
    pipes (Writer.pad w (escapeCell v) ++ row) = (pipes row).map (· + w) := by
  have hblanks : ∀ c ∈ List.replicate (w - (escapeCell v).length) ' ', c ≠ '|' ∧ c ≠ '\\' := by
    intro c hc
    rw [List.eq_of_mem_replicate hc]
    decide
  rw [Writer.pad, List.append_assoc, pipes_escapeCell, pipes_plain_append hblanks, List.map_map,
    List.length_replicate]
  refine List.map_congr_left fun i _ => ?_
  simp only [Function.comp_apply]
  omega

end Table

namespace Writer

open Table

/-- A row is its cells with a pipe in front of each, and a pipe at the end. -/
theorem rowText_eq {ws : List Nat} {cells : List Text} (hlength : ws.length = cells.length)
    (hne : cells ≠ []) : rowText ws cells =
      (List.zipWith (fun w c => '|' :: pad w c) ws cells).flatten ++ ['|'] := by
  have hpadded : List.zipWith pad ws cells ≠ [] := by
    rw [← List.length_pos_iff, List.length_zipWith, hlength, Nat.min_self]
    exact List.length_pos_iff.mpr hne
  rw [rowText, Text.cons_join '|' hpadded, List.map_zipWith]

theorem length_rowText {ws : List Nat} {cells : List Text} (hfit : Fits ws cells)
    (hne : cells ≠ []) : (rowText ws cells).length = (ws.map (· + 1)).sum + 1 := by
  rw [rowText_eq hfit.length_eq hne, List.length_append]
  refine congrArg (· + 1) ?_
  clear hne
  induction hfit with
  | nil => rfl
  | cons hc _ ih =>
      rw [List.zipWith_cons_cons, List.flatten_cons, List.length_append, ih, List.length_cons,
        length_pad hc, List.map_cons, List.sum_cons]

/-- The pipes of a row stand at the edges of the columns, whatever the cells are. -/
theorem pipes_rowText {ws : List Nat} {values : List Text}
    (hfit : Fits ws (values.map escapeCell)) (hne : values ≠ []) :
    pipes (rowText ws (values.map escapeCell)) = edges ws := by
  rw [rowText_eq hfit.length_eq (by simpa using hne)]
  clear hne
  induction values generalizing ws with
  | nil =>
      cases hfit
      rfl
  | cons v values ih =>
      cases hfit with
      | cons hv hrest =>
          rw [List.map_cons, List.zipWith_cons_cons, List.flatten_cons, List.append_assoc,
            List.cons_append, pipes_pipe, pipes_pad hv, ih hrest, edges, List.map_map]
          rfl

/-! ## Lines -/

theorem row_of_holds {r : Draft.Row} {values : List Text} (h : r.Holds values) :
    row r = .ok (values.map escapeCell) := by
  obtain ⟨cells, hcells, hvalues⟩ := h
  rw [row, hcells]
  refine collect_of_forall₂ (List.forall₂_map_right_iff.mpr (hvalues.imp fun c v hv => ?_))
  rw [hv]
  rfl

theorem line_of_margin {w : Writer} {level : Nat} {margin core : Text}
    (h : w.margin level = .ok margin) (hcore : Text.trimLeft core = core) :
    w.line level core = { text := written margin core } := by
  rw [line, h, Written.given, hcore, Written.line, List.append_assoc]
  rfl

/-- What is written of a table: a line for each row. -/
theorem table_eq {w : Writer} (htables : w.support.tables = true) (level : Nat)
    {rows : List Draft.Row} {table : List (List Text)} {n : Nat}
    (hrows : List.Forall₂ Draft.Row.Holds rows table) (hne : table ≠ [])
    (hlength : ∀ values ∈ table, values.length = n) :
    ∃ widths, (∀ values ∈ table, Fits widths (values.map escapeCell)) ∧
      w.table level rows = .all (table.map fun values =>
        w.line level (rowText widths (values.map escapeCell))) := by
  have hcells : collect row rows = .ok (table.map (List.map escapeCell)) :=
    collect_of_forall₂ (List.forall₂_map_right_iff.mpr (hrows.imp fun _ _ h => row_of_holds h))
  obtain ⟨widths, hwidths, _⟩ : ∃ widths,
      columnWidths (table.map (List.map escapeCell)) = .ok widths ∧ widths.length = n := by
    refine columnWidths_length (by simpa using hne) fun cells h => ?_
    obtain ⟨values, hvalues, rfl⟩ := List.mem_map.mp h
    rw [List.length_map, hlength values hvalues]
  refine ⟨widths, fun values h => columnWidths_fits hwidths _ (List.mem_map_of_mem h), ?_⟩
  rw [Writer.table, hcells, Written.given, Writer.widths, if_pos htables, hwidths, Written.given,
    List.map_map]
  rfl

section Rows

variable {margin : Text} (hmargin : ∀ c ∈ margin, c = ' ') {widths : List Nat} {values : List Text}
  (hfit : Fits widths (values.map escapeCell)) (hne : values ≠ [])

include hmargin

theorem whole_row : (written margin (rowText widths (values.map escapeCell))).Whole := by
  refine ⟨margin ++ rowText widths (values.map escapeCell), (List.append_assoc ..).symm, ?_⟩
  rw [List.mem_append, not_or]
  exact ⟨fun h => absurd (hmargin _ h) (by decide), newline_not_mem_rowText widths values⟩

include hfit hne

omit hmargin in
theorem length_row : (written margin (rowText widths (values.map escapeCell))).length =
    margin.length + (widths.map (· + 1)).sum + 2 := by
  rw [written, List.length_append, List.length_append, length_rowText hfit (by simpa using hne)]
  rfl

theorem pipes_row : pipes (written margin (rowText widths (values.map escapeCell))) =
    (edges widths).map (· + margin.length) := by
  have hplain : ∀ c ∈ margin, c ≠ '|' ∧ c ≠ '\\' := by
    intro c hc
    rw [hmargin c hc]
    decide
  rw [written, pipes_plain_append hplain, pipes_append_plain _ (by decide), pipes_rowText hfit hne]

theorem cells_row (htrim : ∀ v ∈ values, Text.trim v = v) :
    (written margin (rowText widths (values.map escapeCell))).cells.map (List.map Item.text) =
      some values := by
  have hblanks : ∀ c ∈ margin, isBlank c = true := by
    intro c hc
    rw [hmargin c hc]
    rfl
  have hlength : widths.length = values.length := by rw [hfit.length_eq, List.length_map]
  obtain ⟨items, htexts, hreads⟩ := row_readsAs hblanks hlength hne htrim
  rw [Matcher.cells_of_tableRow hreads.yes, Option.map_some, htexts]

end Rows

/-- A table of rows of one length, the first of which may be a header, is written with one line for
each row if there is room for its margin, and else nothing is written. All lines are equally long
and have their pipes at the same positions, and the cells that are read off a line are those of its
row. -/
theorem table_lines_up {w : Writer} (htables : w.support.tables = true) (level : Nat)
    {rows : List Draft.Row} {table : List (List Text)} {n : Nat}
    (hrows : List.Forall₂ Draft.Row.Holds rows table) (hne : table ≠ []) (hn : 1 ≤ n)
    (hlength : ∀ values ∈ table, values.length = n)
    (htrim : ∀ values ∈ table, ∀ v ∈ values, Text.trim v = v) :
    ((w.table level rows).fault = none ↔ w.Affords (level * w.indent)) ∧
      ((w.table level rows).fault ≠ none → (w.table level rows).text = []) ∧
      ((w.table level rows).fault = none →
        List.Forall₂
          (fun (l : Line) values => l.Whole ∧ l.cells.map (List.map Item.text) = some values)
          (Text.lines (w.table level rows).text) table ∧
        ∀ l ∈ Text.lines (w.table level rows).text, ∀ k ∈ Text.lines (w.table level rows).text,
          l.length = k.length ∧ pipes l = pipes k) := by
  obtain ⟨widths, hfit, htable⟩ := table_eq htables level hrows hne hlength
  have hcells : ∀ values ∈ table, values ≠ [] := by
    rintro values hvalues rfl
    have := hlength _ hvalues
    rw [List.length_nil] at this
    omega
  rw [htable]
  cases hmargin : w.margin level with
  | error fault =>
      -- The first line cannot be written, and then nothing is.
      have hnone : Written.all (table.map fun values =>
          w.line level (rowText widths (values.map escapeCell))) = { fault := some fault } := by
        obtain ⟨values, rest, rfl⟩ := List.exists_cons_of_ne_nil hne
        rw [List.map_cons, Written.all, line, hmargin]
        rfl
      rw [hnone]
      refine ⟨⟨fun h => (by cases h), fun hroom => ?_⟩, fun _ => rfl, fun h => by cases h⟩
      obtain ⟨margin, hok⟩ := exists_margin_iff.mpr hroom
      rw [hok] at hmargin
      cases hmargin
  | ok margin =>
      have hspaces := w.eq_of_mem_margin hmargin
      have hlines : Written.all (table.map fun values =>
          w.line level (rowText widths (values.map escapeCell))) =
            { text := (table.map fun values =>
                written margin (rowText widths (values.map escapeCell))).flatten } := by
        rw [← Written.all_texts, List.map_map]
        refine congrArg _ (List.map_congr_left fun values _ => ?_)
        exact line_of_margin hmargin (Text.trimLeft_of_head rfl _)
      have hwhole : ∀ l ∈ table.map fun values =>
          written margin (rowText widths (values.map escapeCell)), l.Whole := by
        rw [List.forall_mem_map]
        exact fun values _ => whole_row hspaces
      rw [hlines, Text.lines_flatten hwhole]
      refine ⟨⟨fun _ => exists_margin_iff.mp ⟨margin, hmargin⟩, fun _ => rfl⟩,
        fun h => absurd rfl h, fun _ => ⟨?_, ?_⟩⟩
      · rw [List.forall₂_map_left_iff, List.forall₂_same]
        exact fun values hvalues => ⟨whole_row hspaces,
          cells_row hspaces (hfit values hvalues) (hcells values hvalues) (htrim values hvalues)⟩
      · rw [List.forall_mem_map]
        intro values hvalues
        rw [List.forall_mem_map]
        intro others hothers
        rw [length_row (hfit values hvalues) (hcells values hvalues),
          length_row (hfit others hothers) (hcells others hothers),
          pipes_row hspaces (hfit values hvalues) (hcells values hvalues),
          pipes_row hspaces (hfit others hothers) (hcells others hothers)]
        exact ⟨rfl, rfl⟩

/-- Cells with a pipe, a line feed and backslashes in them, and an empty one. -/
def thornyTable : List (List Text) :=
  [["a|".toList, "\\n".toList], ["x\ny".toList, []], ["\\\\".toList, "\\|".toList]]

/-- What is written of it. -/
def thornyText : Text :=
  ("      |a\\| |\\\\n |\n" ++ "      |x\\ny|    |\n" ++
    "      |\\\\\\\\|\\\\\\||\n").toList

theorem table_lines_up_thornyTable :
    let rows : List Draft.Row := thornyTable.map fun values =>
      { cells := some (values.map fun v => { value := some v }) }
    table { indent := 3 } 2 rows = { text := thornyText } ∧
      List.Forall₂ Draft.Row.Holds rows thornyTable ∧ thornyTable ≠ [] ∧
      (∀ values ∈ thornyTable, values.length = 2) ∧
      (∀ values ∈ thornyTable, ∀ v ∈ values, Text.trim v = v) ∧
      List.Forall₂
        (fun (l : Line) values => l.Whole ∧ l.cells.map (List.map Item.text) = some values)
        (Text.lines thornyText) thornyTable ∧
      ∀ l ∈ Text.lines thornyText, ∀ k ∈ Text.lines thornyText,
        l.length = k.length ∧ pipes l = pipes k := by
  intro rows
  have htext : table { indent := 3 } 2 rows = { text := thornyText } := by decide +kernel
  have hrows : List.Forall₂ Draft.Row.Holds rows thornyTable := by
    rw [List.forall₂_map_left_iff, List.forall₂_same]
    intro values _
    refine ⟨_, rfl, ?_⟩
    rw [List.forall₂_map_left_iff, List.forall₂_same]
    exact fun _ _ => rfl
  have hne : thornyTable ≠ [] := List.cons_ne_nil _ _
  have hlength : ∀ values ∈ thornyTable, values.length = 2 := by decide
  have htrim : ∀ values ∈ thornyTable, ∀ v ∈ values, Text.trim v = v := by decide
  have hfault : (table { indent := 3 } 2 rows).fault = none := by rw [htext]
  have hlines := (table_lines_up rfl 2 hrows hne (by decide) hlength htrim).2.2 hfault
  rw [htext] at hlines
  exact ⟨htext, hrows, hne, hlength, htrim, hlines⟩

end Writer

end FeatureFile
