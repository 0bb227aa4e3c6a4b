import FeatureFile.Builder
import FeatureFile.Trial

/-!
# A run of the parser

A run reads token after token. In each step the state finds the move for the token, and the
move's calls go to the builder: rules are closed from the inside out, rules are opened, and the
token is handed over. A token without a move is reported and left out.

Errors are either raised at once or collected. A run that collects errors keeps going and gives
up with all of them when there is one more than `Run.tolerance`.
-/

namespace FeatureFile

/-- Why a run has ended early. -/
inductive Halt where
  /-- One error, raised at once. -/
  | error (error : ParseError)
  /-- Several errors together. -/
  | errors (errors : List ParseError)
  | fault (fault : Fault)
  deriving Repr, DecidableEq, Inhabited

/-- How a run treats errors and tokens. -/
structure Mode where
  /-- Raise the first error instead of collecting errors. -/
  stopAtFirst : Bool := false
  /-- Kinds of token that are not recognised. -/
  hidden : List TokenKind := []
  deriving Repr, DecidableEq, Inhabited

/-- A parse under way. -/
structure Run (β : Type) where
  reader : Reader
  matcher : Matcher
  builder : β
  errors : List ParseError := []
  deriving Inhabited

namespace Run

variable {β ρ : Type}

/-- The number of errors that are collected before a run gives up. -/
def tolerance : Nat := 10

/-- Reports an error. If it ends the run it is raised as `raised`; otherwise it is kept as
`kept`. -/
def report (mode : Mode) (raised kept : ParseError) (run : Run β) : Run β × Option Halt :=
  if mode.stopAtFirst then (run, some (.error raised))
  else if run.errors.length < tolerance then
    ({ run with errors := run.errors ++ [kept] }, none)
  else
    let errors := run.errors ++ [raised]
    ({ run with errors }, some (.errors errors))

/-- Reports errors in turn until one of them ends the run. -/
def reportAll (mode : Mode) : List (ParseError × ParseError) → Run β → Run β × Option Halt
  | [], run => (run, none)
  | (raised, kept) :: rest, run =>
    match run.report mode raised kept with
    | (run, some halt) => (run, some halt)
    | (run, none) => reportAll mode rest run

/-- Answers a refusal of the builder. -/
def refuse (mode : Mode) : Option Refusal → Run β → Run β × Option Halt
  | none, run => (run, none)
  | some (.error e), run => run.report mode e e
  | some (.errors es), run =>
    if mode.stopAtFirst then (run, some (.errors es))
    else run.reportAll mode (es.map fun e => (e, e))
  | some (.fault f), run => (run, some (.fault f))

/-- Makes one call to the builder. -/
def call [Builder β ρ] (mode : Mode) (call : Call) (run : Run β) : Run β × Option Halt :=
  let (builder, refusal) := Builder.receive call run.builder
  { run with builder }.refuse mode refusal

/-- Makes calls in turn until one of them ends the run. -/
def callAll [Builder β ρ] (mode : Mode) : List Call → Run β → Run β × Option Halt
  | [], run => (run, none)
  | c :: cs, run =>
    match run.call mode c with
    | (run, some halt) => (run, some halt)
    | (run, none) => callAll mode cs run

/-- The calls of a move that is made on a token. -/
def callsOf (move : Move) (token : Token) : List Call :=
  move.closes.map .closed ++ move.opens.map .opened ++ [.read token]

/-- The errors of refused language headers, with the place they are kept at. -/
def refusals (trial : Trial) : List (ParseError × ParseError) :=
  trial.refused.map fun header =>
    (.unsupportedLanguage header header.location.place,
      .unsupportedLanguage header trial.token.location.place)

/-- The outcome of one step: the run, the token with its last reading, and the next state. -/
structure Step (β : Type) where
  run : Run β
  token : Token
  next : Except Halt State
  deriving Inhabited

/-- What a state does with a token. An unexpected token leaves the state as it is. -/
def step [Builder β ρ] (mode : Mode) (s : State) (token : Token) (run : Run β) : Step β :=
  let trial := s.decide mode.hidden token run.matcher run.reader
  let run := { run with matcher := trial.matcher, reader := trial.reader }
  match run.reportAll mode (refusals trial) with
  | (run, some halt) =>
    { run, token := trial.refused.head?.getD trial.token, next := .error halt }
  | (run, none) =>
    match trial.move with
    | .error fault => { run, token := trial.token, next := .error (.fault fault) }
    | .ok none =>
      if s = .finished then
        { run, token := trial.token, next := .error (.fault (.unknownState s.number)) }
      else
        let error := ParseError.unexpected trial.token s.expected
        match run.report mode error error with
        | (run, some halt) => { run, token := trial.token, next := .error halt }
        | (run, none) => { run, token := trial.token, next := .ok s }
    | .ok (some move) =>
      match run.callAll mode (callsOf move trial.token) with
      | (run, some halt) => { run, token := trial.token, next := .error halt }
      | (run, none) => { run, token := trial.token, next := .ok move.next }

/-- Reads the next token and lets the state deal with it. -/
def advance [Builder β ρ] (mode : Mode) (s : State) (run : Run β) : Step β :=
  let (token, reader) := run.reader.next
  { run with reader }.step mode s token

/-- As `advance`, from the state of that number; without one the token is read and left alone. -/
def advanceFrom [Builder β ρ] (mode : Mode) (number : Int) (run : Run β) : Step β :=
  match State.ofNumber number with
  | some s => run.advance mode s
  | none =>
    let (token, reader) := run.reader.next
    { run := { run with reader }, token, next := .error (.fault (.unknownState number)) }

/-- Reads tokens up to the end of the input, at most as many as `fuel` says. -/
def steps [Builder β ρ] (mode : Mode) : Nat → State → Run β → Run β × Option Halt
  | 0, _, run => (run, none)
  | fuel + 1, s, run =>
    let outcome := run.advance mode s
    match outcome.next with
    | .error halt => (outcome.run, some halt)
    | .ok next =>
      if outcome.token.isEnd then (outcome.run, none) else steps mode fuel next outcome.run

/-- A whole run: the document is opened, every line and the end of the input are read, and the
document is closed. -/
def complete [Builder β ρ] (mode : Mode) (run : Run β) : Run β × Option Halt :=
  match run.call mode (.opened .document) with
  | (run, some halt) => (run, some halt)
  | (run, none) =>
    match run.steps mode (run.reader.size + 1) .start with
    | (run, some halt) => (run, some halt)
    | (run, none) =>
      match run.call mode (.closed .document) with
      | (run, some halt) => (run, some halt)
      | (run, none) =>
        if run.errors.isEmpty then (run, none) else (run, some (.errors run.errors))

end Run

end FeatureFile
