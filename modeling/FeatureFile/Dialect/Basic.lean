import FeatureFile.Text.Basic

/-!
# Dialects

A dialect is the set of keywords of one spoken language. A title keyword opens a block and is
followed by a colon; a step keyword opens a step and carries the blank that follows it, if its
language writes one.
-/

namespace FeatureFile

/-- The keywords of one spoken language. -/
structure Dialect where
  name : Text
  features : List Text
  backgrounds : List Text
  scenarios : List Text
  outlines : List Text
  examples : List Text
  givens : List Text
  whens : List Text
  thens : List Text
  ands : List Text
  buts : List Text
  deriving Repr, DecidableEq, Inhabited

/-- All step keywords, in the order in which they are tried. -/
def Dialect.steps (d : Dialect) : List Text :=
  d.givens ++ d.whens ++ d.thens ++ d.ands ++ d.buts

end FeatureFile
