import FeatureFile.Document.Builder
import FeatureFile.Json.Printer
import FeatureFile.Json.Reader
import FeatureFile.Message.Basic
import FeatureFile.Parser
import FeatureFile.Pickle.Compile

/-!
# Streams of messages

A stream takes one source message after the other and answers each with messages. The options
say which of them are wanted: the source, its document, its pickles. A refused source is answered
with attachments alone.

`Stream.process` is the line form of a stream: messages come in as lines of JSON text, and the
source line, the document and the attachments go out as lines.
-/

namespace FeatureFile

/-- Which messages are wanted. -/
structure StreamOptions where
  source : Bool := true
  document : Bool := true
  pickles : Bool := true
  deriving Repr, DecidableEq, Inhabited

/-- A parser that answers messages. Header cells may use the names of characters that it knows. -/
structure Stream where
  options : StreamOptions := {}
  names : CharNames := .empty
  parser : Parser DocumentBuilder := { builder := {} }
  matcher : Matcher := .new .plain .english
  deriving Inhabited

namespace Stream

/-- A field that a message has to have. -/
def field (name : String) (message : Json) : Except Fault Json :=
  match message with
  | .obj _ =>
    match message.get? name with
    | none => .error (.missingField name.toList)
    | some value => .ok value
  | _ => .error .notAnObject

/-- The errors of a run that has ended early. -/
def errorsOf : Halt → Except Fault (List ParseError)
  | .error e => .ok [e]
  | .errors es => .ok es
  | .fault f => .error f

/-- The messages about an accepted source. -/
def accepted (s : Stream) (message uri : Json) (d : Document) : Except Fault (List Message) := do
  let source := if s.options.source then [.source message] else []
  let document := if s.options.document then [.document uri d] else []
  if s.options.pickles then
    let pickles ← d.pickles s.names
    .ok (source ++ document ++ pickles.map (.pickle uri))
  else .ok (source ++ document)

/-- Answers a source message. -/
def respond (s : Stream) (message : Json) : Except Fault (List Message) × Stream :=
  match field "uri" message, field "data" message with
  | .error f, _ => (.error f, s)
  | .ok _, .error f => (.error f, s)
  | .ok uri, .ok (.str source) =>
    let parsed := s.parser.parse s.matcher source
    let s := { s with parser := parsed.parser, matcher := parsed.matcher }
    match parsed.outcome with
    | .ok none => (.ok [], s)
    | .ok (some d) => (s.accepted message uri d, s)
    | .error halt => ((errorsOf halt).map fun es => es.map (.attachment uri), s)
  | .ok _, .ok _ => (.error .notASource, s)

/-- The lines about an accepted source. There is no line form of pickles. -/
def acceptedLines (s : Stream) (line : Text) (d : Document) : List Text × Option Fault :=
  let source := if s.options.source then [line] else []
  let document := if s.options.document then [d.toJson.render] else []
  (source ++ document, if s.options.pickles then some .picklesUnsupported else none)

/-- The lines about the errors of a source. -/
def reportLines (support : Support) (uri : Json) (es : List ParseError) :
    List Text × Option Fault :=
  if support.reports then (es.map fun e => (Message.attachment uri e).toJson.render, none)
  else ([], if es.isEmpty then none else some .reportsUnsupported)

/-- Answers the source in a message with lines. -/
def processSource (s : Stream) (support : Support) (line : Text) (uri : Json) (source : Text) :
    (List Text × Option Fault) × Stream :=
  let parsed := s.parser.parse s.matcher source
  let s := { s with parser := parsed.parser, matcher := parsed.matcher }
  match parsed.outcome with
  | .ok none => (([], none), s)
  | .ok (some d) => (s.acceptedLines line d, s)
  | .error halt =>
    match errorsOf halt with
    | .error f => (([], some f), s)
    | .ok es => (reportLines support uri es, s)

/-- What a line asks for: a source with where it comes from, or nothing. -/
def request (line : Text) : Except Fault (Option (Json × Text)) := do
  let message ← Json.ofText line
  match ← field "type" message with
  | .str type =>
    if type = "source".toList then
      let uri ← field "uri" message
      match ← field "data" message with
      | .str source => .ok (some (uri, source))
      | _ => .error .notAText
    else .ok none
  | _ => .ok none

/-- Answers a line with lines. A message that is not about a source gets no answer. -/
def process (s : Stream) (support : Support) (line : Text) :
    (List Text × Option Fault) × Stream :=
  let line := Text.trimRight line
  match request line with
  | .error f => (([], some f), s)
  | .ok none => (([], none), s)
  | .ok (some (uri, source)) => s.processSource support line uri source

/-- Answers the first lines of an input, as many as asked for; behind its end come empty lines. -/
def processAll (support : Support) : Nat → List Line → Stream → List (List Text × Option Fault)
  | 0, _, _ => []
  | times + 1, lines, s =>
    let (answer, s) := s.process support (lines.headD [])
    answer :: processAll support times lines.tail s

end Stream

end FeatureFile
