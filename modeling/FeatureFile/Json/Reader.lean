import FeatureFile.Fault
import FeatureFile.Json.Basic

/-!
# Reading JSON texts

A text is read whole or not at all. Blanks between the parts of a value are the four of the JSON
format. Texts may not hold control characters, and an escaped pair of surrogates is one
character.
-/

namespace FeatureFile.Json

/-- Drops blanks. -/
def skipBlanks (t : Text) : Text :=
  t.dropWhile fun c => c == ' ' || c == '\t' || c == '\n' || c == '\r'

/-- The value of a hexadecimal digit. -/
def hexValue (c : Char) : Option Nat :=
  let n := c.toNat
  if 48 ≤ n && n ≤ 57 then some (n - 48)
  else if 97 ≤ n && n ≤ 102 then some (n - 87)
  else if 65 ≤ n && n ≤ 70 then some (n - 55)
  else none

/-- A code unit of four hexadecimal digits. -/
def unitValue (a b c d : Char) : Option Nat := do
  some ((← hexValue a) * 4096 + (← hexValue b) * 256 + (← hexValue c) * 16 + (← hexValue d))

/-- The character of a code unit; a surrogate alone is none. -/
def charOfUnit (n : Nat) : Char :=
  if 0xD800 ≤ n && n < 0xE000 then Char.ofNat 0xFFFD else Char.ofNat n

/-- What a backslash and the given character stand for. -/
def simpleEscape (c : Char) : Option Char :=
  if c.toNat = 34 || c = '\\' || c = '/' then some c
  else if c = 'b' then some (Char.ofNat 8)
  else if c = 'f' then some (Char.ofNat 12)
  else if c = 'n' then some '\n'
  else if c = 'r' then some '\r'
  else if c = 't' then some '\t'
  else none

/-- A high surrogate that waits for its partner, put in front of the text read behind it. -/
def settle (high : Option Nat) (read : Text × Text) : Text × Text :=
  match high with
  | none => read
  | some n => (charOfUnit n :: read.1, read.2)

/-- Reads up to the closing quote. `high` is a high surrogate read just before. -/
def readText (high : Option Nat) : Text → Option (Text × Text)
  | [] => none
  | '\\' :: 'u' :: a :: b :: c :: d :: cs => do
    let n ← unitValue a b c d
    match high with
    | some h =>
      if 0xDC00 ≤ n && n < 0xE000 then
        let (t, rest) ← readText none cs
        some (Char.ofNat (0x10000 + (h - 0xD800) * 0x400 + (n - 0xDC00)) :: t, rest)
      else if 0xD800 ≤ n && n < 0xDC00 then
        (readText (some n) cs).map (settle high)
      else
        let (t, rest) ← readText none cs
        some (settle high (charOfUnit n :: t, rest))
    | none =>
      if 0xD800 ≤ n && n < 0xDC00 then readText (some n) cs
      else
        let (t, rest) ← readText none cs
        some (charOfUnit n :: t, rest)
  | '\\' :: c :: cs => do
    let e ← simpleEscape c
    let (t, rest) ← readText none cs
    some (settle high (e :: t, rest))
  | c :: cs =>
    if c.toNat = 34 then some (settle high ([], cs))
    else if c.toNat < 32 || c = '\\' then none
    else do
      let (t, rest) ← readText none cs
      some (settle high (c :: t, rest))

/-- The value of a text of decimal digits. -/
def digitsValue (ds : Text) : Nat := ds.foldl (fun n d => 10 * n + (d.toNat - 48)) 0

/-- The fraction of a number: a point and digits. -/
def readFraction : Text → Text × Text
  | '.' :: cs =>
    if (cs.takeWhile Char.isDigit).isEmpty then ([], '.' :: cs)
    else ('.' :: cs.takeWhile Char.isDigit, cs.dropWhile Char.isDigit)
  | cs => ([], cs)

/-- The exponent of a number: a letter, a sign if need be, and digits. -/
def readExponent : Text → Text × Text
  | e :: s :: cs =>
    if e = 'e' || e = 'E' then
      if s = '+' || s = '-' then
        if (cs.takeWhile Char.isDigit).isEmpty then ([], e :: s :: cs)
        else (e :: s :: cs.takeWhile Char.isDigit, cs.dropWhile Char.isDigit)
      else if s.isDigit then
        (e :: (s :: cs).takeWhile Char.isDigit, (s :: cs).dropWhile Char.isDigit)
      else ([], e :: s :: cs)
    else ([], e :: s :: cs)
  | cs => ([], cs)

/-- Reads a text behind its opening quote. -/
def readString (t : Text) : Except Fault (Text × Text) :=
  match readText none t with
  | none => .error .badJson
  | some read => .ok read

/-- Reads a number without its sign. -/
def readUnsigned (negative : Bool) (t : Text) : Except Fault (Json × Text) :=
  let whole := if t.head? = some '0' then ['0'] else t.takeWhile Char.isDigit
  if whole.isEmpty then .error .badJson
  else
    let (fraction, t) := readFraction (t.drop whole.length)
    let (exponent, t) := readExponent t
    if fraction.isEmpty && exponent.isEmpty then
      if Text.maxDigits < whole.length then .error .longNumber
      else
        let n : Int := digitsValue whole
        .ok (int (if negative then -n else n), t)
    else
      let sign := if negative then ['-'] else []
      .ok (decimal (sign ++ whole ++ fraction ++ exponent), t)

/-- The words that stand for values. -/
def constants : List (Text × Json) :=
  [("null".toList, null), ("true".toList, bool true), ("false".toList, bool false),
    ("NaN".toList, decimal "NaN".toList), ("Infinity".toList, decimal "Infinity".toList),
    ("-Infinity".toList, decimal "-Infinity".toList)]

/-- Reads a word or a number. -/
def readScalar (t : Text) : Except Fault (Json × Text) :=
  match constants.find? fun (word, _) => word.isPrefixOf t with
  | some (word, value) => .ok (value, t.drop word.length)
  | none =>
    match t with
    | '-' :: cs => readUnsigned true cs
    | cs => readUnsigned false cs

mutual

/-- Reads a value. The fuel bounds the depth and the number of parts. -/
def readValue : Nat → Text → Except Fault (Json × Text)
  | 0, _ => .error .badJson
  | fuel + 1, t =>
    match t with
    | '[' :: cs =>
      match skipBlanks cs with
      | ']' :: rest => .ok (arr [], rest)
      | cs => do
        let (items, rest) ← readItems fuel cs
        .ok (arr items, rest)
    | '{' :: cs =>
      match skipBlanks cs with
      | '}' :: rest => .ok (obj [], rest)
      | cs => do
        let (fields, rest) ← readFields fuel cs
        .ok (ofFields fields, rest)
    | c :: cs =>
      if c.toNat = 34 then do
        let (t, rest) ← readString cs
        .ok (str t, rest)
      else readScalar (c :: cs)
    | [] => .error .badJson

/-- Reads the items of an array up to its end. -/
def readItems : Nat → Text → Except Fault (List Json × Text)
  | 0, _ => .error .badJson
  | fuel + 1, t => do
    let (value, t) ← readValue fuel t
    match skipBlanks t with
    | ']' :: rest => .ok ([value], rest)
    | ',' :: t =>
      let (values, rest) ← readItems fuel (skipBlanks t)
      .ok (value :: values, rest)
    | _ => .error .badJson

/-- Reads the fields of an object up to its end. -/
def readFields : Nat → Text → Except Fault (List (Text × Json) × Text)
  | 0, _ => .error .badJson
  | fuel + 1, t =>
    match t with
    | c :: cs =>
      if c.toNat = 34 then do
        let (key, t) ← readString cs
        match skipBlanks t with
        | ':' :: t =>
          let (value, t) ← readValue fuel (skipBlanks t)
          match skipBlanks t with
          | '}' :: rest => .ok ([(key, value)], rest)
          | ',' :: t =>
            let (fields, rest) ← readFields fuel (skipBlanks t)
            .ok ((key, value) :: fields, rest)
          | _ => .error .badJson
        | _ => .error .badJson
      else .error .badJson
    | [] => .error .badJson

end

/-- The value of a text. -/
def ofText (t : Text) : Except Fault Json := do
  let t := skipBlanks t
  let (value, rest) ← readValue (t.length + 1) t
  if (skipBlanks rest).isEmpty then .ok value else .error .badJson

end FeatureFile.Json
