import FeatureFile.Document.Json

/-!
# Pickles

A pickle is a scenario ready to be carried out: a name, steps without placeholders, and the tags
that apply. It comes from a scenario or from one row of examples of a scenario outline, and it
lists all the places it comes from.
-/

namespace FeatureFile

structure PickleTag where
  name : Text
  location : Location
  deriving Repr, DecidableEq, Inhabited

structure PickleCell where
  location : Location
  value : Text
  deriving Repr, DecidableEq, Inhabited

inductive PickleArgument where
  | table (rows : List (List PickleCell))
  | docString (location : Location) (content : Text) (contentType : Option Text)
  deriving Repr, DecidableEq, Inhabited

structure PickleStep where
  text : Text
  arguments : List PickleArgument
  locations : List Location
  deriving Repr, DecidableEq, Inhabited

/-- What a pickle comes from. -/
inductive PickleOrigin where
  | scenario
  | exampleRow
  deriving Repr, DecidableEq, Inhabited

structure Pickle where
  origin : PickleOrigin
  name : Text
  language : Text
  steps : List PickleStep
  tags : List PickleTag
  locations : List Location
  deriving Repr, DecidableEq, Inhabited

open Json

def PickleTag.toJson (t : PickleTag) : Json :=
  object [("name", str t.name), ("location", t.location.toJson)]

def PickleCell.toJson (c : PickleCell) : Json :=
  object [("location", c.location.toJson), ("value", str c.value)]

def PickleArgument.toJson : PickleArgument → Json
  | table rows =>
    object
      [("rows", arr (rows.map fun cells => object [("cells", arr (cells.map PickleCell.toJson))]))]
  | docString location content contentType =>
    object
      ([("location", location.toJson), ("content", str content)] ++
       optional "contentType" (contentType.map str))

def PickleStep.toJson (s : PickleStep) : Json :=
  object
    [("text", str s.text), ("arguments", arr (s.arguments.map PickleArgument.toJson)),
     ("locations", arr (s.locations.map Location.toJson))]

/-- The JSON form. The order of the fields depends on what the pickle comes from. -/
def Pickle.toJson (p : Pickle) : Json :=
  let name := ("name", str p.name)
  let language := ("language", str p.language)
  let steps := ("steps", arr (p.steps.map PickleStep.toJson))
  let tags := ("tags", arr (p.tags.map PickleTag.toJson))
  let locations := ("locations", arr (p.locations.map Location.toJson))
  match p.origin with
  | .scenario => object [tags, name, language, locations, steps]
  | .exampleRow => object [name, language, steps, tags, locations]

end FeatureFile
