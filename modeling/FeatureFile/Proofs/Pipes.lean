import FeatureFile.Proofs.Escapes
import Mathlib.Data.List.Range

/-!
# Where a row is cut

The cells of a row are found by one walk over its characters, which keeps a cell under way and jumps
over what a backslash takes with it. This module says without a walk where a row is cut: at the
pipes with an even number of backslashes in front of them (`Table.pipes`). Each two neighbours among
them have a cell between them, and its text is what is written there with the escapes resolved
(`Table.decode`).

Whether a pipe is escaped is a question about everything in front of it, and the walk knows only how
it has come there. The two agree because a run of backslashes is used up in pairs: an escape at the
front of a row can be taken away without changing what is escaped behind it (`Table.cutsAt_escape`).
So the pipes of a row can be told from those of what is left of it, one lemma for each way in which
the walk goes on, and the cells follow (`Table.splitCellsFrom_eq`).
-/

namespace FeatureFile

/-- The part of a text strictly between two positions. -/
def Text.between (t : Text) (i j : Nat) : Text := (t.take j).drop (i + 1)

namespace Table

/-- At that position there is a pipe with an even number of backslashes in front of it. -/
def CutsAt (row : Text) (i : Nat) : Prop :=
  row[i]? = some '|' ∧ Even (Text.backslashes (row.take i))

instance (row : Text) (i : Nat) : Decidable (CutsAt row i) :=
  inferInstanceAs (Decidable (_ ∧ _))

/-- The positions of the pipes that are not escaped, counted from zero. -/
def pipes (row : Text) : List Nat := (List.range row.length).filter (CutsAt row ·)

/-- What a text stands for inside a cell, from the left to the right: a line feed, a backslash and a
pipe are written with a backslash in front, and before anything else a backslash is one. -/
def decode : Text → Text
  | '\\' :: 'n' :: cs => '\n' :: decode cs
  | '\\' :: '\\' :: cs => '\\' :: decode cs
  | '\\' :: '|' :: cs => '|' :: decode cs
  | '\\' :: c :: cs => '\\' :: c :: decode cs
  | c :: cs => c :: decode cs
  | [] => []

theorem decode_plain {c : Char} (hc : c ≠ '\\') (cs : Text) :
    decode (c :: cs) = c :: decode cs := by
  rw [decode] <;> intros <;> contradiction

theorem decode_escape (c : Char) (cs : Text) :
    decode ('\\' :: c :: cs) = unescape c ++ decode cs := by
  by_cases hn : c = 'n'
  · subst hn
    rfl
  · by_cases hescape : c = '\\'
    · subst hescape
      rfl
    · by_cases hpipe : c = '|'
      · subst hpipe
        rfl
      · rw [unescape, if_neg hn, if_neg (by simp [hpipe, hescape]), decode]
        · rfl
        · exact hn
        · exact hescape
        · exact hpipe

/-! ## The pipes of a row -/

theorem cutsAt_cons_of_ne {c : Char} (hc : c ≠ '\\') (cs : Text) (i : Nat) :
    CutsAt (c :: cs) (i + 1) ↔ CutsAt cs i := by
  rw [CutsAt, CutsAt, List.getElem?_cons_succ, List.take_succ_cons, Text.backslashes_of_ne hc]

/-- Behind an escape everything is cut as if the escape were not there. -/
theorem cutsAt_escape (c : Char) (cs : Text) (i : Nat) :
    CutsAt ('\\' :: c :: cs) (i + 2) ↔ CutsAt cs i := by
  rw [CutsAt, CutsAt, List.getElem?_cons_succ, List.getElem?_cons_succ, List.take_succ_cons,
    List.take_succ_cons, ← Nat.not_odd_iff_even, ← Nat.not_odd_iff_even,
    Text.odd_backslashes_escape]

theorem not_cutsAt_escaped (c : Char) (cs : Text) : ¬ CutsAt ('\\' :: c :: cs) 1 := by
  rintro ⟨_, heven⟩
  have hone : Text.backslashes (('\\' :: c :: cs).take 1) = 1 := rfl
  rw [hone] at heven
  exact absurd heven (by decide)

theorem pipes_cons (c : Char) (cs : Text) : pipes (c :: cs) =
    (if c = '|' then [0] else []) ++
      ((List.range cs.length).filter fun i => CutsAt (c :: cs) (i + 1)).map (· + 1) := by
  have hfront : CutsAt (c :: cs) 0 ↔ c = '|' := by
    simp [CutsAt, Text.backslashes]
  rw [pipes, List.length_cons, List.range_succ_eq_map, List.filter_cons, List.filter_map]
  by_cases hc : c = '|'
  · rw [if_pos (by simpa using hfront.mpr hc), if_pos hc]
    rfl
  · rw [if_neg (by simpa using fun h => hc (hfront.mp h)), if_neg hc]
    rfl

theorem pipes_pipe (cs : Text) : pipes ('|' :: cs) = 0 :: (pipes cs).map (· + 1) := by
  rw [pipes_cons, if_pos rfl]
  simp only [cutsAt_cons_of_ne (show '|' ≠ '\\' by decide)]
  rfl

theorem pipes_plain {c : Char} (hpipe : c ≠ '|') (hescape : c ≠ '\\') (cs : Text) :
    pipes (c :: cs) = (pipes cs).map (· + 1) := by
  rw [pipes_cons, if_neg hpipe]
  simp only [cutsAt_cons_of_ne hescape]
  rfl

theorem pipes_escape (c : Char) (cs : Text) :
    pipes ('\\' :: c :: cs) = (pipes cs).map (· + 2) := by
  rw [pipes_cons, if_neg (by decide), List.nil_append, List.length_cons, List.range_succ_eq_map,
    List.filter_cons_of_neg (by simpa using not_cutsAt_escaped c cs), List.filter_map, List.map_map]
  simp only [Function.comp_def, cutsAt_escape]
  rfl

/-- A stretch without pipes and backslashes in front of a row only moves its pipes. -/
theorem pipes_plain_append {front : Text} (h : ∀ c ∈ front, c ≠ '|' ∧ c ≠ '\\') (row : Text) :
    pipes (front ++ row) = (pipes row).map (· + front.length) := by
  induction front with
  | nil => exact (List.map_id _).symm
  | cons c front ih =>
      obtain ⟨hc, hfront⟩ := List.forall_mem_cons.mp h
      rw [List.cons_append, pipes_plain hc.1 hc.2, ih hfront, List.map_map]
      refine List.map_congr_left fun i _ => ?_
      simp only [Function.comp_apply, List.length_cons]
      omega

theorem pipes_append_plain (row : Text) {back : Text} (h : '|' ∉ back) :
    pipes (row ++ back) = pipes row := by
  have hfront : ∀ i ∈ List.range row.length, CutsAt (row ++ back) i ↔ CutsAt row i := by
    intro i hi
    have hlt := List.mem_range.mp hi
    rw [CutsAt, CutsAt, List.getElem?_append_left hlt, List.take_append_of_le_length hlt.le]
  have hback : ∀ i ∈ List.range back.length, ¬ CutsAt (row ++ back) (row.length + i) := by
    rintro i - ⟨hpipe, _⟩
    rw [List.getElem?_append_right (Nat.le_add_right _ _)] at hpipe
    exact h (List.mem_of_getElem? hpipe)
  have hnone : ((List.range back.length).map (row.length + ·)).filter
      (CutsAt (row ++ back) ·) = [] := by
    rw [List.filter_map, List.map_eq_nil_iff, List.filter_eq_nil_iff]
    intro i hi
    simpa using hback i hi
  rw [pipes, pipes, List.length_append, List.range_add, List.filter_append, hnone, List.append_nil]
  exact List.filter_congr fun i hi => decide_eq_decide.mpr (hfront i hi)

theorem lt_of_mem_pipes {row : Text} {i : Nat} (h : i ∈ pipes row) : i < row.length :=
  List.mem_range.mp (List.mem_filter.mp h).1

/-! ## The cells of a row -/

/-- A cell for each two neighbours among the pipes of what is left of a row, if the next character
stands at that column. -/
def cellsFrom (column : Nat) (row : Text) : List (Text × Nat) :=
  List.zipWith (fun i j => (decode (row.between i j), column + i + 1)) (pipes row) (pipes row).tail

/-- The cell under way, if there is a pipe that ends it. -/
def cellUnderWay (start : Nat) (cell row : Text) : List (Text × Nat) :=
  (pipes row).head?.toList.map fun i => (cell ++ decode (row.take i), start)

theorem between_append (front row : Text) (i j : Nat) :
    (front ++ row).between (i + front.length) (j + front.length) = row.between i j := by
  rw [Text.between, Text.between, Nat.add_comm j, List.take_length_add_append,
    show i + front.length + 1 = front.length + (i + 1) by omega, List.drop_length_add_append]

section Front

variable {front row : Text} (hpipes : pipes (front ++ row) = (pipes row).map (· + front.length))

include hpipes

/-- What is not cut only moves the cells behind it. -/
theorem cellsFrom_append (column : Nat) :
    cellsFrom column (front ++ row) = cellsFrom (column + front.length) row := by
  rw [cellsFrom, cellsFrom, hpipes, ← List.map_tail, List.zipWith_map]
  refine congrArg₂ (List.zipWith · · _) ?_ rfl
  funext i j
  rw [between_append]
  congr 1
  omega

theorem cellUnderWay_append {text : Text}
    (hdecode : ∀ i, decode (front ++ row.take i) = text ++ decode (row.take i)) (start : Nat)
    (cell : Text) :
    cellUnderWay start cell (front ++ row) = cellUnderWay start (cell ++ text) row := by
  rw [cellUnderWay, cellUnderWay, hpipes, List.head?_map]
  cases (pipes row).head? with
  | none => rfl
  | some i =>
      simp only [Option.map_some, Option.toList_some, List.map_singleton]
      rw [Nat.add_comm, List.take_length_add_append, hdecode, List.append_assoc]

end Front

/-- A pipe begins a cell, if another one ends it. -/
theorem cellsFrom_pipe (column : Nat) (row : Text) : cellsFrom column ('|' :: row) =
    cellUnderWay (column + 1) [] row ++ cellsFrom (column + 1) row := by
  rw [cellsFrom, cellUnderWay, cellsFrom, pipes_pipe, List.tail_cons]
  cases pipes row with
  | nil => rfl
  | cons i is =>
      have hmoved : (i + 1) :: is.map (· + 1) = (i :: is).map (· + 1) := rfl
      rw [List.map_cons, List.zipWith_cons_cons, hmoved, List.zipWith_map]
      refine congrArg₂ List.cons rfl (congrArg₂ (List.zipWith · · _) ?_ rfl)
      funext i j
      rw [show Text.between ('|' :: row) (i + 1) (j + 1) = row.between i j from
        between_append ['|'] row i j]
      congr 1
      omega

/-- What the walk makes of the rest of a row: the cell under way, if it is inside one, and the cells
between the pipes to come. -/
theorem splitCellsFrom_eq (column : Nat) (inside : Bool) (start : Nat) (cell row : Text)
    (heven : ¬ Odd (Text.backslashes row)) : splitCellsFrom column inside start cell row =
      some ((if inside then cellUnderWay start cell row else []) ++ cellsFrom column row) := by
  fun_induction splitCellsFrom column inside start cell row with
  | case1 column inside start cell => cases inside <;> rfl
  | case2 column start cell cs rest ih =>
      -- A pipe inside the row ends the cell under way.
      rw [Text.backslashes_of_ne (by decide)] at heven
      have hended : cellUnderWay start cell ('|' :: cs) = [(cell, start)] := by
        rw [cellUnderWay, pipes_pipe]
        exact congrArg (fun text => [(text, start)]) (List.append_nil cell)
      have hrest : rest = _ := ih heven
      rw [hrest, if_pos rfl, if_pos rfl, hended, cellsFrom_pipe]
      rfl
  | case3 column inside start cell cs rest hinside ih =>
      -- The first pipe.
      rw [Text.backslashes_of_ne (by decide)] at heven
      have hrest : rest = _ := ih heven
      rw [hrest, if_neg hinside, cellsFrom_pipe]
      rfl
  | case4 => exact absurd (by decide) heven
  | case5 column inside start cell c cs ih =>
      rw [Text.odd_backslashes_escape] at heven
      have hpipes : pipes (['\\', c] ++ cs) = (pipes cs).map (· + ['\\', c].length) :=
        pipes_escape c cs
      have hcell : cellUnderWay start cell ('\\' :: c :: cs) = _ :=
        cellUnderWay_append hpipes (fun i => decode_escape c (cs.take i)) start cell
      have hcells : cellsFrom column ('\\' :: c :: cs) = _ := cellsFrom_append hpipes column
      rw [ih heven, hcell, hcells]
      rfl
  | case6 column inside start cell c cs hpipe hlast hescape ih =>
      have hc : c ≠ '\\' := by
        intro hc
        cases cs with
        | nil => exact hlast hc rfl
        | cons d ds => exact hescape d ds hc rfl
      rw [Text.backslashes_of_ne hc] at heven
      have hpipes : pipes ([c] ++ cs) = (pipes cs).map (· + [c].length) := pipes_plain hpipe hc cs
      have hdecode : ∀ i, decode ([c] ++ cs.take i) = [c] ++ decode (cs.take i) :=
        fun i => decode_plain hc (cs.take i)
      have hcell : cellUnderWay start cell (c :: cs) = _ :=
        cellUnderWay_append hpipes hdecode start cell
      have hcells : cellsFrom column (c :: cs) = _ := cellsFrom_append hpipes column
      rw [ih heven, hcell, hcells]
      rfl

/-- A row with no unfinished escape has a cell between any two neighbouring pipes. -/
theorem splitCells_of_even {row : Text} (heven : ¬ Odd (Text.backslashes row)) :
    splitCells row = some (List.zipWith (fun i j => (decode (row.between i j), i + 2)) (pipes row)
      (pipes row).tail) := by
  rw [splitCells, splitCellsFrom_eq 1 false 1 [] row heven]
  refine congrArg some (congrArg₂ (List.zipWith · · _) ?_ rfl)
  funext i j
  congr 1
  omega

/-- The cells of a row. A row that ends in an odd run of backslashes cannot be split. Any other row
has one cell for each pair of neighbouring pipes, with what stands between them, escapes replaced,
and with the column behind the first of the two. -/
theorem split_between_pipes (row : Text) : splitCells row =
    if Odd (Text.backslashes row) then none
    else some (List.zipWith (fun i j => (decode (row.between i j), i + 2)) (pipes row)
      (pipes row).tail) := by
  split
  · next hodd => exact (splitCells_eq_none row).mpr hodd
  · next heven => exact splitCells_of_even heven

end Table

end FeatureFile
