import FeatureFile.Fault
import FeatureFile.Pattern.Basic
import FeatureFile.Text.Name

/-!
# Reading patterns

The written form of patterns: characters stand for themselves, except for the dot, sets in square
brackets, groups in round brackets, bars between alternatives, the anchors, repetition marks, and
escapes. A brace that does not start a count is a character like any other.

A round bracket and a question mark open something else than a numbered group: a group with a name,
brackets that are not remembered or not tried twice, a look ahead or back, a choice that depends on
a group, a comment, or brackets inside which letters, anchors, the dot or blanks are read in
another way (`Scope`).

A text that breaks these rules is no pattern: unbalanced brackets, an open set, a repetition of
nothing or of a repetition, a range that runs backwards, an escaped letter without a meaning, a
group that is not there, a look back over a text of unknown length. Counts have a limit. A text is
read from left to right, and the first thing that is wrong with it decides the fault. How long a
look back is and which groups a choice depends on is checked at the end.

The names of characters are not part of the rules: they come from the surroundings (`CharNames`).
Brackets may be nested to any depth here.
-/

namespace FeatureFile

/-- The codes of characters by their names, as the surroundings know them. -/
abbrev CharNames := Text → Option Nat

/-- No character is known by a name. -/
def CharNames.empty : CharNames := fun _ => none

namespace Pattern

/-- Reads a number of exactly `n` hexadecimal digits. -/
def readHex : Nat → Nat → Text → Option (Nat × Text)
  | 0, value, t => some (value, t)
  | n + 1, value, c :: cs =>
    let d := c.toNat
    if 48 ≤ d && d ≤ 57 then readHex n (16 * value + (d - 48)) cs
    else if 97 ≤ d && d ≤ 102 then readHex n (16 * value + (d - 87)) cs
    else if 65 ≤ d && d ≤ 70 then readHex n (16 * value + (d - 55)) cs
    else none
  | _ + 1, _, [] => none

/-- An octal digit. -/
def isOctal (c : Char) : Bool := '0' ≤ c && c ≤ '7'

/-- A digit of the decimal system as programs write it. -/
def isPlainDigit (c : Char) : Bool := '0' ≤ c && c ≤ '9'

/-- A letter of the basic alphabet. -/
def isPlainLetter (c : Char) : Bool := ('a' ≤ c && c ≤ 'z') || ('A' ≤ c && c ≤ 'Z')

/-- The value of digits to a base. -/
def valueOf (base : Nat) (ds : Text) : Nat :=
  ds.foldl (fun n d => base * n + (d.toNat - 48)) 0

/-- The longest start of a text, up to `n` characters, that satisfies `p`. -/
def takeAtMost (p : Char → Bool) (n : Nat) (t : Text) : Text := (t.take n).takeWhile p

/-- The control characters that letters stand for behind a backslash. -/
def controlOf (c : Char) : Option Char :=
  if c = 'a' then some (Char.ofNat 7)
  else if c = 'f' then some (Char.ofNat 12)
  else if c = 'n' then some '\n'
  else if c = 'r' then some '\r'
  else if c = 't' then some '\t'
  else if c = 'v' then some (Char.ofNat 11)
  else none

/-- The classes that letters stand for behind a backslash. -/
def classOf (ascii : Bool) (c : Char) : Option CharClass :=
  if c = 'd' then some (.digit ascii false)
  else if c = 'D' then some (.digit ascii true)
  else if c = 's' then some (.blank ascii false)
  else if c = 'S' then some (.blank ascii true)
  else if c = 'w' then some (.word ascii false)
  else if c = 'W' then some (.word ascii true)
  else none

/-- The anchors that letters stand for behind a backslash. -/
def anchorOf (ascii : Bool) (c : Char) : Option Anchor :=
  if c = 'A' then some .start
  else if c = 'Z' then some .veryEnd
  else if c = 'b' then some (.wordEdge ascii)
  else if c = 'B' then some (.noWordEdge ascii)
  else none

/-- Reads a name up to the character that ends it. -/
def readName (stop : Char) (t : Text) : Option (Text × Text) :=
  let name := t.takeWhile (· != stop)
  match t.drop name.length with
  | [] => none
  | _ :: rest => some (name, rest)

/-! ## How parts are read -/

/-- How the inside of a bracket is read. -/
structure Scope where
  /-- Letters match in either case. -/
  ignoreCase : Bool := false
  /-- Classes hold basic characters only. -/
  ascii : Bool := false
  /-- The anchors hold at every line. -/
  lines : Bool := false
  /-- The dot matches line feeds as well. -/
  dotAll : Bool := false
  /-- Blanks and comments are left out. -/
  spaced : Bool := false
  /-- Inside a look back, the number of groups in front of it. -/
  behind : Option Nat := none
  deriving Repr, DecidableEq, Inhabited

namespace Scope

/-- How far letters count as the same. -/
def fold (s : Scope) : Fold :=
  if !s.ignoreCase then .exact else if s.ascii then .ascii else .full

/-- The character of a code. -/
def literal (s : Scope) (code : Nat) : Pattern := char { classes := [.single code], fold := s.fold }

/-- What the dot matches. -/
def dot (s : Scope) : Pattern :=
  char { negated := true, classes := if s.dotAll then [] else [.single '\n'.toNat] }

/-- The anchor in front. -/
def start (s : Scope) : Anchor := if s.lines then .lineStart else .start

/-- The anchor behind. -/
def finish (s : Scope) : Anchor := if s.lines then .lineFinish else .finish

/-- Turns flags on and off. -/
def switch (s : Scope) (on off : Text) : Scope :=
  { s with
    ignoreCase := (s.ignoreCase || on.contains 'i') && !off.contains 'i'
    ascii := on.contains 'a' || (s.ascii && !on.contains 'u')
    lines := (s.lines || on.contains 'm') && !off.contains 'm'
    dotAll := (s.dotAll || on.contains 's') && !off.contains 's'
    spaced := (s.spaced || on.contains 'x') && !off.contains 'x' }

end Scope

/-- Drops the rest of a line. An escaped line feed does not end it. -/
def dropLine : Text → Text
  | [] => []
  | '\n' :: cs => cs
  | '\\' :: _ :: cs => dropLine cs
  | _ :: cs => dropLine cs

/-- What is left behind a blank or a comment, where these are left out. -/
def Scope.skip? (s : Scope) (c : Char) (cs : Text) : Option Text :=
  if !s.spaced then none
  else if CharClass.isAsciiBlank c then some cs
  else if c = '#' then some (dropLine cs)
  else none

/-- A pattern being read: what is left of its text, the number of groups so far, those of them that
are closed and those that have names, and the groups that choices depend on. -/
structure Source where
  rest : Text
  groups : Nat := 0
  closed : List (Nat × Width) := []
  names : List (Text × Nat) := []
  asked : List Nat := []
  deriving Repr, DecidableEq, Inhabited

/-- Can the text of the group be asked for? The group is closed, and it is not part of a look back
that is still open. -/
def Source.offers (s : Source) (scope : Scope) (n : Nat) : Bool :=
  (s.closed.lookup n).isSome && scope.behind.all fun m => n ≤ m

/-! ## Characters, sets and escapes -/

section Names

variable (names : CharNames)

/-- A character given by its name, behind a backslash and a letter. -/
def readNamed : Text → Option (Nat × Text)
  | '{' :: cs => do
    let (name, rest) ← readName '}' cs
    if name.isEmpty then none else (names name).map fun n => (n, rest)
  | _ => none

/-- A character given by its code or name behind a backslash and a letter. -/
def readCode (c : Char) (t : Text) : Option (Nat × Text) :=
  if c = 'x' then readHex 2 0 t
  else if c = 'u' then readHex 4 0 t
  else if c = 'U' then (readHex 8 0 t).filter fun r => r.1 ≤ 0x10FFFF
  else if c = 'N' then readNamed names t
  else none

/-- Reads an escape inside a set, behind the backslash. -/
def readSetEscape (ascii : Bool) (c : Char) (t : Text) : Option (CharClass × Text) :=
  match controlOf c, classOf ascii c with
  | some d, _ => some (.single d.toNat, t)
  | none, some k => some (k, t)
  | none, none =>
    if c = 'b' then some (.single 8, t)
    else if isOctal c then
      let ds := takeAtMost isOctal 2 t
      let n := valueOf 8 (c :: ds)
      if n ≤ 255 then some (.single n, t.drop ds.length) else none
    else if isPlainDigit c then none
    else if isPlainLetter c then (readCode names c t).map fun (n, t) => (.single n, t)
    else some (.single c.toNat, t)

/-- Reads one end of a range, or a class. -/
def readSetItem (ascii : Bool) : Text → Option (CharClass × Text)
  | [] => none
  | '\\' :: c :: cs => readSetEscape names ascii c cs
  | ['\\'] => none
  | c :: cs => some (.single c.toNat, cs)

/-- Reads the classes of a set up to its end. A closing bracket in front is a character. -/
def readSet (ascii : Bool) : Nat → List CharClass → Text → Option (List CharClass × Text)
  | 0, _, _ => none
  | fuel + 1, classes, t =>
    match t, classes with
    | ']' :: rest, _ :: _ => some (classes, rest)
    | t, _ => do
      let (low, t) ← readSetItem names ascii t
      match t with
      | '-' :: ']' :: rest => some (classes ++ [low, .single '-'.toNat], rest)
      | '-' :: t =>
        let (high, t) ← readSetItem names ascii t
        match low, high with
        | .single a, .single b =>
          if b < a then none else readSet ascii fuel (classes ++ [.range a b]) t
        | _, _ => none
      | t => readSet ascii fuel (classes ++ [low]) t

/-- Reads a set behind its opening bracket. -/
def readBrackets (scope : Scope) (t : Text) : Option (Pattern × Text) :=
  let (negated, t) := match t with
    | '^' :: cs => (true, cs)
    | cs => (false, cs)
  (readSet names scope.ascii (t.length + 1) [] t).map fun (classes, rest) =>
    (char { negated, classes, fold := scope.fold }, rest)

/-- A number behind a backslash: a character by its code if it starts with a zero or has three
octal digits, and else the text of a group. -/
def readNumber (scope : Scope) (s : Source) (c : Char) (t : Text) : Option (Pattern × Text) :=
  if c = '0' then
    let ds := takeAtMost isOctal 2 t
    some (scope.literal (valueOf 8 ds), t.drop ds.length)
  else
    let ds := takeAtMost isPlainDigit 1 t
    let octals := takeAtMost isOctal 2 t
    if isOctal c && octals.length = 2 then
      let n := valueOf 8 (c :: octals)
      if n ≤ 255 then some (scope.literal n, t.drop 2) else none
    else
      let n := valueOf 10 (c :: ds)
      if s.offers scope n then some (again n scope.fold, t.drop ds.length) else none

/-- Reads an escape outside sets, behind the backslash. -/
def readEscape (scope : Scope) (s : Source) (c : Char) (t : Text) : Option (Pattern × Text) :=
  match anchorOf scope.ascii c, classOf scope.ascii c, controlOf c with
  | some a, _, _ => some (anchor a, t)
  | none, some k, _ => some (char { classes := [k], fold := scope.fold }, t)
  | none, none, some d => some (scope.literal d.toNat, t)
  | none, none, none =>
    if isPlainDigit c then readNumber scope s c t
    else if isPlainLetter c then (readCode names c t).map fun (n, t) => (scope.literal n, t)
    else some (scope.literal c.toNat, t)

/-- Reads a part that is neither in round brackets nor a repetition mark. -/
def readAtom (scope : Scope) (s : Source) (c : Char) (cs : Text) : Option (Pattern × Text) :=
  if c = '.' then some (scope.dot, cs)
  else if c = '^' then some (anchor scope.start, cs)
  else if c = '$' then some (anchor scope.finish, cs)
  else if c = '[' then readBrackets names scope cs
  else if c = '\\' then
    match cs with
    | [] => none
    | d :: cs => readEscape names scope s d cs
  else some (scope.literal c.toNat, cs)

end Names

/-! ## Repetition marks -/

/-- How often a part is repeated, and what follows the mark; a brace may turn out to be no
mark. -/
inductive Mark where
  | none
  | count (least : Nat) (most : Option Nat) (rest : Text)
  | bad (fault : Fault)
  deriving Repr, DecidableEq, Inhabited

/-- Counts have to be smaller. -/
def countLimit : Nat := 4294967295

/-- The count that digits stand for. -/
def countOf (ds : Text) : Except Fault Nat :=
  if Text.maxDigits < ds.length then .error .longNumber
  else if countLimit ≤ valueOf 10 ds then .error .hugeCount
  else .ok (valueOf 10 ds)

/-- The mark of a count between braces. No digits in front stand for zero, and none behind for
any number. -/
def countMark (low high rest : Text) : Mark :=
  match countOf low with
  | .error fault => .bad fault
  | .ok least =>
    if high.isEmpty then .count least none rest
    else
      match countOf high with
      | .error fault => .bad fault
      | .ok most => if most < least then .bad .badPattern else .count least (some most) rest

/-- Reads a repetition mark. -/
def readMark : Text → Mark
  | '*' :: cs => .count 0 none cs
  | '+' :: cs => .count 1 none cs
  | '?' :: cs => .count 0 (some 1) cs
  | '{' :: '}' :: _ => .none
  | '{' :: cs =>
    let low := cs.takeWhile isPlainDigit
    let cs := cs.dropWhile isPlainDigit
    let (high, cs) :=
      match cs with
      | ',' :: ds => (ds.takeWhile isPlainDigit, ds.dropWhile isPlainDigit)
      | _ => (low, cs)
    match cs with
    | '}' :: rest => countMark low high rest
    | _ => .none
  | _ => .none

/-- Reads what a repetition mark may be followed by. -/
def readGreed : Text → Greed × Text
  | '?' :: cs => (.reluctant, cs)
  | '+' :: cs => (.possessive, cs)
  | cs => (.greedy, cs)

/-- Can the part be repeated? -/
def isRepeatable : Pattern → Bool
  | repetition .. | anchor _ => false
  | _ => true

/-- Is it the start of a repetition mark? -/
def isMark (c : Char) : Bool := c = '*' || c = '+' || c = '?' || c = '{'

/-- Reads a repetition mark and repeats the last part. A brace that is no mark is a part by
itself. -/
def readRepetition (scope : Scope) (parts : List Pattern) (c : Char) (cs : Text) :
    Except Fault (List Pattern × Text) :=
  match readMark (c :: cs) with
  | .bad fault => .error fault
  | .none => .ok (scope.literal c.toNat :: parts, cs)
  | .count least most rest =>
    match parts with
    | [] => .error .badPattern
    | p :: ps =>
      if isRepeatable p then
        let (greed, rest) := readGreed rest
        .ok (repetition p least most greed :: ps, rest)
      else .error .badPattern

/-! ## Round brackets -/

/-- The number that digits of any script write, with single underscores between them. The digits
read so far make `n`, and `pending` tells whether a digit has to come next. -/
def numberFrom (n : Nat) (pending : Bool) : Text → Option Nat
  | [] => if pending then none else some n
  | c :: cs =>
    match Text.digitValue? c with
    | some d => numberFrom (10 * n + d) false cs
    | none => if c == '_' && !pending then numberFrom n true cs else none

/-- The number of a group, with an optional sign and blanks around it. No group has a negative
number, and a number of too many digits is none. -/
def groupNumber? (name : Text) : Option Nat :=
  if Text.maxDigits < name.countP Text.isDigit then none
  else
    match Text.trim name with
    | '+' :: t => numberFrom 0 true t
    | '-' :: t => (numberFrom 0 true t).filter (· = 0)
    | t => numberFrom 0 true t

/-- Numbers of groups have to be smaller. -/
def groupLimit : Nat := 1073741823

/-- The group that is meant by a name or a number. -/
def Source.group? (s : Source) (name : Text) : Option Nat :=
  if Text.isName name then s.names.lookup name
  else (groupNumber? name).filter fun n => 0 < n && n < groupLimit

/-- What is in round brackets. -/
inductive Bracket where
  /-- A group that is remembered, and its name. -/
  | group (name : Option Text)
  /-- Brackets that are not remembered, and how their inside is read. -/
  | plain (inside : Scope)
  | atomic
  | look (behind negated : Bool)
  | choice (number : Nat)
  deriving Repr, DecidableEq, Inhabited

namespace Bracket

/-- How the inside is read. -/
def scope (b : Bracket) (outside : Scope) (s : Source) : Scope :=
  match b with
  | plain inside => inside
  | look true _ => { outside with behind := outside.behind <|> some s.groups }
  | _ => outside

/-- The number of bars inside, if it is limited. -/
def bars : Bracket → Option Nat
  | choice _ => some 1
  | _ => none

/-- The source behind the opening bracket. -/
def enter (b : Bracket) (s : Source) (rest : Text) : Source :=
  match b with
  | group name =>
    let n := s.groups + 1
    { s with rest, groups := n, names := name.toList.map (·, n) ++ s.names }
  | choice n => { s with rest, asked := n :: s.asked }
  | _ => { s with rest }

/-- The part that the alternatives inside make. `s` is the source in front of the bracket and `t`
the one behind it. -/
def part (b : Bracket) (s t : Source) (ps : List Pattern) : Pattern :=
  match b with
  | group _ => .group (some (s.groups + 1)) (oneOf ps)
  | plain _ => .group none (oneOf ps)
  | atomic => .atomic (oneOf ps)
  | look false negated => .look (.fixed 0) negated (oneOf ps)
  | look true negated => .look ((oneOf ps).width t.closed) negated (oneOf ps)
  | choice n => .choice n (ps.headD .empty) (oneOf ps.tail)

/-- The source behind the closing bracket, where a group has become known. -/
def leave (b : Bracket) (s t : Source) (ps : List Pattern) : Source :=
  match b with
  | group _ => { t with closed := (s.groups + 1, (oneOf ps).width t.closed) :: t.closed }
  | _ => t

end Bracket

/-- What an opening bracket has turned out to be. -/
inductive Opening where
  /-- A comment. -/
  | nothing (rest : Text)
  /-- A whole part. -/
  | part (p : Pattern) (rest : Text)
  /-- A bracket whose inside comes next. -/
  | bracket (b : Bracket) (rest : Text)
  deriving Repr, DecidableEq, Inhabited

/-- Drops a comment and its closing bracket. -/
def dropComment : Text → Option Text
  | [] => none
  | ')' :: cs => some cs
  | '\\' :: _ :: cs => dropComment cs
  | _ :: cs => dropComment cs

/-- Reads the flags of a bracket: those that are turned on and, behind a hyphen, those that are
turned off. Flags for the whole pattern would have to stand at its very start. -/
def readFlags (scope : Scope) (t : Text) : Option (Scope × Text) :=
  let on := t.takeWhile fun c => "aimsux".toList.contains c
  if on.contains 'a' && on.contains 'u' then none
  else
    match t.drop on.length with
    | ':' :: rest => if on.isEmpty then none else some (scope.switch on [], rest)
    | '-' :: t =>
      let off := t.takeWhile fun c => "imsx".toList.contains c
      match t.drop off.length with
      | ':' :: rest =>
        if off.isEmpty || off.any on.contains then none else some (scope.switch on off, rest)
      | _ => none
    | _ => none

/-- A group starts, unless there are too many or one of that name. -/
def openGroup (s : Source) (name : Option Text) (rest : Text) : Option Opening :=
  if groupLimit ≤ s.groups + 1 || (name.any fun n => (s.names.lookup n).isSome) then none
  else some (.bracket (.group name) rest)

/-- Reads what stands behind an opening bracket and a question mark. -/
def readExtension (scope : Scope) (s : Source) : Text → Option Opening
  | ':' :: cs => some (.bracket (.plain scope) cs)
  | '>' :: cs => some (.bracket .atomic cs)
  | '=' :: cs => some (.bracket (.look false false) cs)
  | '!' :: cs => some (.bracket (.look false true) cs)
  | '<' :: '=' :: cs => some (.bracket (.look true false) cs)
  | '<' :: '!' :: cs => some (.bracket (.look true true) cs)
  | '#' :: cs => (dropComment cs).map .nothing
  | 'P' :: '<' :: cs => do
    let (name, rest) ← readName '>' cs
    if Text.isName name then openGroup s (some name) rest else none
  | 'P' :: '=' :: cs => do
    let (name, rest) ← readName ')' cs
    let n ← s.names.lookup name
    if s.offers scope n then some (.part (again n scope.fold) rest) else none
  | '(' :: cs => do
    let (name, rest) ← readName ')' cs
    let n ← s.group? name
    if scope.behind.isNone || s.offers scope n then some (.bracket (.choice n) rest) else none
  | cs => do
    let (inside, rest) ← readFlags scope cs
    some (.bracket (.plain inside) rest)

/-- Reads what stands behind an opening bracket. -/
def readOpening (scope : Scope) (s : Source) : Text → Option Opening
  | '?' :: cs => readExtension scope s cs
  | cs => openGroup s none cs

/-! ## Patterns -/

section Names

variable (names : CharNames)

mutual

/-- Reads alternatives up to a closing bracket or the end. `bars` limits the number of bars between
them. -/
def readAlternatives :
    Nat → Scope → Option Nat → Source → Except Fault (List Pattern × Source)
  | 0, _, _, _ => .error .badPattern
  | fuel + 1, scope, bars, s =>
    match readSequence fuel scope [] s with
    | .error fault => .error fault
    | .ok (p, s) =>
      match s.rest with
      | '|' :: cs =>
        if bars = some 0 then .error .badPattern
        else
          match readAlternatives fuel scope (bars.map (· - 1)) { s with rest := cs } with
          | .error fault => .error fault
          | .ok (ps, s) => .ok (p :: ps, s)
      | _ => .ok ([p], s)

/-- Reads parts up to a bar, a closing bracket or the end. `parts` are those before, last one
first. -/
def readSequence : Nat → Scope → List Pattern → Source → Except Fault (Pattern × Source)
  | 0, _, _, _ => .error .badPattern
  | fuel + 1, scope, parts, s =>
    match s.rest with
    | [] => .ok (ofList parts.reverse, s)
    | c :: cs =>
      if c = '|' || c = ')' then .ok (ofList parts.reverse, s)
      else
        match scope.skip? c cs with
        | some rest => readSequence fuel scope parts { s with rest }
        | none =>
          if isMark c then
            match readRepetition scope parts c cs with
            | .error fault => .error fault
            | .ok (parts, rest) => readSequence fuel scope parts { s with rest }
          else if c = '(' then
            match readOpening scope s cs with
            | none => .error .badPattern
            | some (.nothing rest) => readSequence fuel scope parts { s with rest }
            | some (.part p rest) => readSequence fuel scope (p :: parts) { s with rest }
            | some (.bracket b rest) =>
              match readAlternatives fuel (b.scope scope s) b.bars (b.enter s rest) with
              | .error fault => .error fault
              | .ok (ps, t) =>
                match t.rest with
                | ')' :: rest =>
                  readSequence fuel scope (b.part s t ps :: parts) (b.leave s { t with rest } ps)
                | _ => .error .badPattern
          else
            match readAtom names scope s c cs with
            | none => .error .badPattern
            | some (p, rest) => readSequence fuel scope (p :: parts) { s with rest }

end

/-- The pattern of a header cell, which stands between angle brackets, and its groups. -/
def ofHeader (header : Text) : Except Fault (Pattern × Groups) := do
  let t := "<".toList ++ header ++ ">".toList
  let (ps, s) ← readAlternatives names (2 * t.length + 2) {} none { rest := t }
  if s.rest.isEmpty && s.asked.all (· ≤ s.groups) && (oneOf ps).looksFixed then
    .ok (oneOf ps, { count := s.groups, names := s.names })
  else .error .badPattern

end Names

end Pattern

end FeatureFile
