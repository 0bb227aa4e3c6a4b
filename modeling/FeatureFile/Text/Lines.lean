import FeatureFile.Text.Basic

/-!
# Cutting a source into lines

A source is cut after every line feed and nowhere else, and each line keeps its line feed, so
the lines laid end to end are the source again. A text that comes from a file is first brought
to that one line terminator by `Text.unifyLineEnds`.
-/

namespace FeatureFile.Text

/-- The lines of a source, each with its line feed; only the last may lack one. -/
def lines : Text → List Text
  | [] => []
  | c :: cs =>
    if c = '\n' then ['\n'] :: lines cs
    else
      match lines cs with
      | [] => [[c]]
      | l :: ls => (c :: l) :: ls

/-- Carriage return with line feed, and a carriage return alone, become a line feed. -/
def unifyLineEnds : Text → Text
  | [] => []
  | '\r' :: '\n' :: cs => '\n' :: unifyLineEnds cs
  | '\r' :: cs => '\n' :: unifyLineEnds cs
  | c :: cs => c :: unifyLineEnds cs

@[simp] theorem flatten_lines (t : Text) : (lines t).flatten = t := by
  induction t with
  | nil => rfl
  | cons c cs ih =>
    unfold lines
    split
    · simp_all
    · cases h : lines cs with
      | nil => simp_all
      | cons l ls => simp_all

end FeatureFile.Text
