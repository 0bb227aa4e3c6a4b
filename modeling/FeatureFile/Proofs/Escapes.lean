import FeatureFile.Line
import Mathlib.Algebra.Ring.Parity
import Mathlib.Data.List.DropRight

/-!
# Rows that end inside an escape

In a table row a backslash takes the next character with it. A row that ends in a backslash with
nothing behind it has no cells at all, and this is the one line for which no matcher has an answer.

Which rows these are can be seen at their end: what stands before the last run of backslashes is
settled when the run begins, and the run is used up in pairs. So the row ends inside an escape if
and only if the run has odd length (`Table.splitCells_eq_none`).
-/

namespace FeatureFile

/-- The number of backslashes at the end of a text. -/
def Text.backslashes (t : Text) : Nat := (t.rtakeWhile (· == '\\')).length

namespace Text

theorem backslashes_cons (c : Char) (cs : Text) :
    backslashes (c :: cs) =
      if backslashes cs = cs.length ∧ c = '\\' then backslashes cs + 1 else backslashes cs := by
  simp only [backslashes, List.rtakeWhile, List.reverse_cons, List.length_reverse]
  rw [List.takeWhile_append, List.length_reverse]
  by_cases hfull : (cs.reverse.takeWhile (· == '\\')).length = cs.length
  · by_cases hc : c = '\\'
    · simp [hfull, hc]
    · simp [hfull, hc]
  · simp [hfull]

theorem backslashes_le (t : Text) : backslashes t ≤ t.length :=
  (List.rtakeWhile_suffix _ _).length_le

/-- An escape at the front is settled: it takes two characters and does not change how the text
ends. -/
theorem odd_backslashes_escape (c : Char) (cs : Text) :
    Odd (backslashes ('\\' :: c :: cs)) ↔ Odd (backslashes cs) := by
  have hle := backslashes_le cs
  rw [backslashes_cons, backslashes_cons, List.length_cons]
  by_cases hfull : backslashes cs = cs.length ∧ c = '\\'
  · rw [if_pos hfull, if_pos ⟨by omega, rfl⟩, Nat.add_assoc, Nat.odd_add]
    simp
  · rw [if_neg hfull, if_neg (by omega)]

theorem backslashes_of_ne {c : Char} (hc : c ≠ '\\') (cs : Text) :
    backslashes (c :: cs) = backslashes cs := by
  rw [backslashes_cons, if_neg fun h => hc h.2]

end Text

namespace Table

theorem splitCellsFrom_eq_none (column : Nat) (inside : Bool) (start : Nat) (cell row : Text) :
    splitCellsFrom column inside start cell row = none ↔ Odd (Text.backslashes row) := by
  fun_induction splitCellsFrom column inside start cell row with
  | case1 => simp [Text.backslashes]
  | case2 column start cell cs rest ih =>
      -- A pipe inside the row.
      rw [Option.map_eq_none_iff, Text.backslashes_of_ne (by decide)]
      exact ih
  | case3 column inside start cell cs rest hinside ih =>
      -- The first pipe.
      rw [Text.backslashes_of_ne (by decide)]
      exact ih
  | case4 => exact ⟨fun _ => by decide, fun _ => rfl⟩
  | case5 column inside start cell c cs ih =>
      rw [Text.odd_backslashes_escape]
      exact ih
  | case6 column inside start cell c cs hpipe hlast hescape ih =>
      have hc : c ≠ '\\' := by
        intro hc
        cases cs with
        | nil => exact hlast hc rfl
        | cons d ds => exact hescape d ds hc rfl
      rw [Text.backslashes_of_ne hc]
      exact ih

/-- A row has no cells if and only if it ends in an odd number of backslashes. -/
theorem splitCells_eq_none (row : Text) : splitCells row = none ↔ Odd (Text.backslashes row) :=
  splitCellsFrom_eq_none 1 false 1 [] row

end Table

theorem Line.cells_eq_none (l : Line) : l.cells = none ↔ Odd (Text.backslashes (Text.trim l)) := by
  rw [Line.cells, Option.map_eq_none_iff, Table.splitCells_eq_none]

end FeatureFile
