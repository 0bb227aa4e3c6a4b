import FeatureFile.Text.Basic

/-!
# Places in a source

A `Location` is a line and a column, both counted from one. A `Place` is what an error points
at: usually a location, but it may name a line as a whole.
-/

namespace FeatureFile

/-- A line and a column of a source. -/
structure Location where
  line : Int
  column : Int
  deriving Repr, DecidableEq, Inhabited

/-- A line of a source, and a column of it unless the line as a whole is meant. -/
structure Place where
  line : Int
  column : Option Int
  deriving Repr, DecidableEq, Inhabited

/-- The place of a location. -/
def Location.place (l : Location) : Place := ⟨l.line, some l.column⟩

/-- The text in front of an error message; a place without a column is printed as column zero. -/
def Place.stamp (p : Place) : Text :=
  "(".toList ++ Text.ofInt p.line ++ ":".toList ++ Text.ofInt (p.column.getD 0) ++ "): ".toList

end FeatureFile
