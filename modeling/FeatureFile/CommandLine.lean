import FeatureFile.Archive
import FeatureFile.Listing
import FeatureFile.Message.Stream

/-!
# The command line

There are two commands. `events` prints the messages about every file it is given, one JSON text
a line; options leave out sources, documents or pickles. `tokens` prints the token listing of
every file, or of the argument itself if it names no file. Files are taken one after the other,
and a failure leaves what was printed before.
-/

namespace FeatureFile

/-- What a command has printed, and why it has ended if not in the regular way. -/
structure Printed where
  lines : List Text := []
  halt : Option Halt := none
  deriving Inhabited

/-- What to tell about a command that has not ended in the regular way. Showing the help is no
reason to complain. -/
def Printed.complaint (p : Printed) : Option Text :=
  match p.halt with
  | none => none
  | some (.error e) => some e.message
  | some (.errors es) => some (ParseError.summary es)
  | some (.fault .usage) =>
    if p.lines.isEmpty then some "the arguments cannot be understood".toList else none
  | some (.fault .noFile) => some "there is no such file".toList
  | some (.fault .badEncoding) => some "the file is not valid UTF-8".toList
  | some (.fault f) => some (f.message.getD "the command has failed".toList)

namespace CommandLine

/-- The long options. -/
def longOptions : List Text :=
  ["--help".toList, "--no-source".toList, "--no-ast".toList, "--no-pickles".toList]

/-- The help text. -/
def help : List Text :=
  ["Usage: gherkin [options]".toList,
   "".toList,
   "Options:".toList,
   "  -h, --help    show this help message and exit".toList,
   "  --no-source   don't print source events".toList,
   "  --no-ast      don't print ast events".toList,
   "  --no-pickles  don't print pickle events".toList]

/-- The option meant by a word that may be cut short, if only one can be meant. -/
def expandOption (word : Text) : Option Text :=
  if longOptions.contains word then some word
  else
    match longOptions.filter fun o => word.isPrefixOf o with
    | [o] => some o
    | _ => none

/-- What the arguments ask for. -/
inductive Request where
  | run (options : StreamOptions) (paths : List Text)
  | help
  | misuse
  deriving Repr, DecidableEq, Inhabited

/-- Puts a path in front of those of a request. -/
def Request.withPath (path : Text) : Request → Request
  | run options paths => run options (path :: paths)
  | r => r

/-- Reads the arguments. Options may stand anywhere before a double hyphen; a single hyphen is a
path. -/
def readArguments (options : StreamOptions) : List Text → Request
  | [] => .run options []
  | arg :: args =>
    if arg = "--".toList then .run options args
    else if "--".toList.isPrefixOf arg then
      match expandOption arg with
      | none => .misuse
      | some o =>
        if o = "--help".toList then .help
        else if o = "--no-source".toList then readArguments { options with source := false } args
        else if o = "--no-ast".toList then readArguments { options with document := false } args
        else readArguments { options with pickles := false } args
    else if "-h".toList.isPrefixOf arg then .help
    else if "-".toList.isPrefixOf arg && arg.length ≠ 1 then .misuse
    else (readArguments options args).withPath arg

/-- The source messages of files, in order. -/
def sources (archive : Archive) (support : Support) (paths : List Text) :
    Except Fault (List Json) :=
  collect (fun path => (archive.read support path).map (Message.sourceJson path)) paths

/-- Prints the messages about files, one after the other. -/
def printEvents (archive : Archive) (support : Support) : List Text → Stream → Printed
  | [], _ => {}
  | path :: paths, s =>
    match archive.read support path with
    | .error f => { halt := some (.fault f) }
    | .ok data =>
      match s.respond (Message.sourceJson path data) with
      | (.error f, _) => { halt := some (.fault f) }
      | (.ok messages, s) =>
        let rest := printEvents archive support paths s
        { rest with lines := messages.map (fun m => m.toJson.render) ++ rest.lines }

/-- The command `events`. -/
def events (archive : Archive) (support : Support) (args : List Text)
    (names : CharNames := .empty) : Printed :=
  match readArguments {} args with
  | .misuse => { halt := some (.fault .usage) }
  | .help => { lines := help, halt := some (.fault .usage) }
  | .run options paths => printEvents archive support paths { options, names }

/-- Prints the token listings of files, one after the other. -/
def printTokens (archive : Archive) (support : Support) :
    List Text → Parser Listing → Matcher → Printed
  | [], _, _ => {}
  | path :: paths, p, m =>
    match archive.openSource support path with
    | .error f => { halt := some (.fault f) }
    | .ok intake =>
      let parsed := p.parseIntake m intake
      match parsed.outcome with
      | .error halt => { halt := some halt }
      | .ok listing =>
        let rest := printTokens archive support paths parsed.parser parsed.matcher
        { rest with lines := Text.splitOn '\n' listing ++ rest.lines }

/-- The command `tokens`. -/
def tokens (archive : Archive) (support : Support) (args : List Text) : Printed :=
  printTokens archive support args { builder := {} } (.new .plain .english)

end CommandLine

end FeatureFile
