import FeatureFile.Json.Basic

/-!
# JSON texts

A value is written on one line, with a blank after every comma and colon. Texts are written in
printable ASCII: everything else is escaped, characters beyond the basic plane as a pair of
surrogates.
-/

namespace FeatureFile.Json

/-- A hexadecimal digit in lower case. -/
def hexDigit (n : Nat) : Char := if n < 10 then Char.ofNat (48 + n) else Char.ofNat (87 + n)

/-- The escape of a code unit of sixteen bits. -/
def escapeUnit (n : Nat) : Text :=
  ['\\', 'u', hexDigit (n / 4096 % 16), hexDigit (n / 256 % 16), hexDigit (n / 16 % 16),
    hexDigit (n % 16)]

/-- A character inside a written text. -/
def escapeChar (c : Char) : Text :=
  let n := c.toNat
  if n = 34 then ['\\', Char.ofNat 34]
  else if n = 92 then ['\\', '\\']
  else if 32 ≤ n && n ≤ 126 then [c]
  else if n = 10 then ['\\', 'n']
  else if n = 13 then ['\\', 'r']
  else if n = 9 then ['\\', 't']
  else if n = 12 then ['\\', 'f']
  else if n = 8 then ['\\', 'b']
  else if n < 0x10000 then escapeUnit n
  else escapeUnit (0xD800 + (n - 0x10000) / 0x400) ++ escapeUnit (0xDC00 + (n - 0x10000) % 0x400)

/-- A written text with its quotes. -/
def quote (t : Text) : Text := Char.ofNat 34 :: t.flatMap escapeChar ++ [Char.ofNat 34]

mutual

/-- The text of a value. -/
def render : Json → Text
  | null => "null".toList
  | bool true => "true".toList
  | bool false => "false".toList
  | int n => Text.ofInt n
  | decimal literal => literal
  | str t => quote t
  | arr items => '[' :: renderItems items
  | obj fields => '{' :: renderFields fields

/-- The items of an array up to its end. -/
def renderItems : List Json → Text
  | [] => [']']
  | [v] => render v ++ [']']
  | v :: w :: vs => render v ++ ", ".toList ++ renderItems (w :: vs)

/-- The fields of an object up to its end. -/
def renderFields : List (Text × Json) → Text
  | [] => ['}']
  | [(k, v)] => quote k ++ ": ".toList ++ render v ++ ['}']
  | (k, v) :: f :: fs =>
    quote k ++ ": ".toList ++ render v ++ ", ".toList ++ renderFields (f :: fs)

end

end FeatureFile.Json
