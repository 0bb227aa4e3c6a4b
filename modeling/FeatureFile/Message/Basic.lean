import FeatureFile.ParseError
import FeatureFile.Pickle.Basic

/-!
# Messages

What is found in sources is passed on as messages: the source itself, its document, its pickles,
or, if it is refused, one attachment for every error. Every message names where its source comes
from.
-/

namespace FeatureFile

/-- A message about a source. -/
inductive Message where
  /-- A source, as it was received. -/
  | source (message : Json)
  | document (uri : Json) (document : Document)
  | pickle (uri : Json) (pickle : Pickle)
  /-- An error of the source. -/
  | attachment (uri : Json) (error : ParseError)
  deriving Inhabited

namespace Message

open Json

/-- The encoding and type of the data of a message. -/
def media (type : String) : Json :=
  object [("encoding", string "utf-8"), ("type", string type)]

/-- The message that hands over a source. -/
def sourceJson (uri data : Text) : Json :=
  object
    [("type", string "source"), ("uri", str uri), ("data", str data),
     ("media", media "text/x.cucumber.gherkin+plain")]

/-- The JSON form of a message. -/
def toJson : Message → Json
  | source message => message
  | document uri d =>
    object [("type", string "gherkin-document"), ("uri", uri), ("document", d.toJson)]
  | pickle uri p => object [("type", string "pickle"), ("uri", uri), ("pickle", p.toJson)]
  | attachment uri e =>
    object
      [("type", string "attachment"),
       ("source", object
         [("uri", uri),
          ("start", object
            [("line", int e.place.line), ("column", int (e.place.column.getD 0))])]),
       ("data", str e.message),
       ("media", media "text/x.cucumber.stacktrace+plain")]

end Message

end FeatureFile
