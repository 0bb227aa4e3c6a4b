import FeatureFile.Fault
import FeatureFile.Pattern.Match
import FeatureFile.Pattern.Reader

/-!
# Replacing matches

What a match is replaced by is given as a template, in which escapes stand for control characters
and for the text of groups. `replaceMatches` replaces all matches from left to right: the search
goes on behind a match, and behind a match of nothing it looks for a longer one first.
-/

namespace FeatureFile

/-- A part of a replacement: text, or what a group has matched. Group zero is the whole match. -/
inductive TemplatePart where
  | text (t : Text)
  | group (number : Nat)
  deriving Repr, DecidableEq, Inhabited

namespace TemplatePart

open Pattern

/-- The group of that number, if there is one. -/
def groupOf (groups : Groups) (n : Nat) : Except Fault TemplatePart :=
  if n ≤ groups.count then .ok (.group n) else .error .badTemplate

/-- The group that is meant between angle brackets, by its name or by its number. -/
def groupNamed (groups : Groups) (name : Text) : Except Fault TemplatePart :=
  if Text.isName name then
    match groups.names.lookup name with
    | some n => .ok (.group n)
    | none => .error .unknownGroup
  else
    match groupNumber? name with
    | some n => groupOf groups n
    | none => .error .badTemplate

/-- A number behind a backslash: a character by its code if it starts with a zero or has three
octal digits, and else a group. -/
def readNumber (groups : Groups) (c : Char) (t : Text) : Except Fault (TemplatePart × Text) :=
  if c = '0' then
    let ds := takeAtMost isOctal 2 t
    .ok (.text [Char.ofNat (valueOf 8 ds % 256)], t.drop ds.length)
  else
    let ds := takeAtMost isPlainDigit 1 t
    let octals := takeAtMost isOctal 2 t
    if isOctal c && octals.length = 2 then
      let n := valueOf 8 (c :: octals)
      if n ≤ 255 then .ok (.text [Char.ofNat n], t.drop 2) else .error .badTemplate
    else (groupOf groups (valueOf 10 (c :: ds))).map fun p => (p, t.drop ds.length)

/-- Reads an escape behind the backslash. -/
def readEscape (groups : Groups) (c : Char) (t : Text) : Except Fault (TemplatePart × Text) :=
  if c = 'g' then
    match t with
    | '<' :: cs =>
      let name := cs.takeWhile fun d => d != '>'
      match cs.drop name.length with
      | [] | [_, '\\'] => .error .badTemplate
      | _ :: rest => (groupNamed groups name).map fun p => (p, rest)
    | _ => .error .badTemplate
  else if isPlainDigit c then readNumber groups c t
  else
    match controlOf c with
    | some d => .ok (.text [d], t)
    | none =>
      if c = 'b' then .ok (.text [Char.ofNat 8], t)
      else if c = '\\' then .ok (.text ['\\'], t)
      else if isPlainLetter c then .error .badTemplate
      else .ok (.text ['\\', c], t)

/-- Reads the parts of a template for a pattern with these groups. -/
def readParts (groups : Groups) : Nat → Text → Except Fault (List TemplatePart)
  | 0, _ => .ok []
  | fuel + 1, t =>
    match t with
    | [] => .ok []
    | ['\\'] => .error .badTemplate
    | '\\' :: c :: cs =>
      match readEscape groups c cs with
      | .error f => .error f
      | .ok (part, rest) => (readParts groups fuel rest).map (part :: ·)
    | c :: cs => (readParts groups fuel cs).map (.text [c] :: ·)

/-- The parts of a template. A text without a backslash stands for itself. -/
def ofText (groups : Groups) (t : Text) : Except Fault (List TemplatePart) :=
  if t.contains '\\' then readParts groups (t.length + 1) t else .ok [.text t]

/-- The replacement of a match. A group that has matched nothing counts as empty. -/
def expand (whole : Text) (c : Cursor) : List TemplatePart → Text
  | [] => []
  | .text t :: ps => t ++ expand whole c ps
  | .group 0 :: ps => whole ++ expand whole c ps
  | .group (n + 1) :: ps => (c.group? (n + 1)).getD [] ++ expand whole c ps

end TemplatePart

namespace Pattern

/-- The replacement at a place and the length of the text it takes the place of. -/
def replacementAt (p : Pattern) (template : List TemplatePart) (advance : Bool)
    (past rest : Text) : Option (Text × Nat) :=
  (p.matchAt advance past rest).map fun c =>
    let length := rest.length - c.rest.length
    (TemplatePart.expand (rest.take length) c template, length)

/-- The replacements at a place: that of a match, and behind a match of nothing that of a longer
one. The length is that of the text they take the place of. -/
def replacementsAt (p : Pattern) (template : List TemplatePart) (past rest : Text) :
    Text × Nat :=
  match p.replacementAt template false past rest with
  | none => ([], 0)
  | some (new, 0) =>
    match p.replacementAt template true past rest with
    | none => (new, 0)
    | some (newer, length) => (new ++ newer, length)
  | some (new, length) => (new, length)

/-- Replaces all matches; `skip` characters belong to the last match. -/
def replaceFrom (p : Pattern) (template : List TemplatePart) (past : Text) : Nat → Text → Text
  | _ + 1, [] => []
  | skip + 1, c :: cs => replaceFrom p template (c :: past) skip cs
  | 0, [] => (p.replacementsAt template past []).1
  | 0, c :: cs =>
    match p.replacementsAt template past (c :: cs) with
    | (new, 0) => new ++ c :: replaceFrom p template (c :: past) 0 cs
    | (new, length + 1) => new ++ replaceFrom p template (c :: past) length cs

/-- Replaces all matches of a pattern in a text. -/
def replaceMatches (p : Pattern) (template : List TemplatePart) (t : Text) : Text :=
  replaceFrom p template [] 0 t

end Pattern

end FeatureFile
