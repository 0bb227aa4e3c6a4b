/-!
# Texts and the blank characters

Everything the library reads or writes is a list of characters. Lengths, columns and indents
count characters, and every function below is a plain recursion on the list, so that a closed
text can be evaluated by the kernel and an open one reasoned about by induction.

`isBlank` is the whitespace of the feature-file format: it decides indents, trimming and
emptiness of lines. It holds for the control characters that separate lines and fields and for
the space separators of Unicode; the zero-width characters are not blank.
-/

namespace FeatureFile

/-- A text is a list of characters. -/
abbrev Text := List Char

/-- The blank characters: tabs, line and field separators, and the Unicode spaces. -/
def isBlank (c : Char) : Bool :=
  let n := c.toNat
  (9 ≤ n && n ≤ 13) || (28 ≤ n && n ≤ 32) || n == 0x85 || n == 0xA0 || n == 0x1680 ||
    (0x2000 ≤ n && n ≤ 0x200A) || n == 0x2028 || n == 0x2029 || n == 0x202F || n == 0x205F ||
    n == 0x3000

namespace Text

/-- Drops the longest final stretch of characters that satisfy `p`. -/
def dropEnd (p : Char → Bool) : Text → Text
  | [] => []
  | c :: cs =>
    match dropEnd p cs with
    | [] => if p c then [] else [c]
    | d :: ds => c :: d :: ds

/-- Drops leading blanks. -/
def trimLeft (t : Text) : Text := t.dropWhile isBlank

/-- Drops trailing blanks. -/
def trimRight (t : Text) : Text := dropEnd isBlank t

/-- Drops blanks on both sides. -/
def trim (t : Text) : Text := trimRight (trimLeft t)

/-- Carriage return or line feed. -/
def isLineEnd (c : Char) : Bool := c == '\r' || c == '\n'

/-- Drops the line terminator, however many characters it has. -/
def chomp (t : Text) : Text := dropEnd isLineEnd t

/-- The number of leading blanks. -/
def indent (t : Text) : Nat := (t.takeWhile isBlank).length

/-- Every occurrence of `old`, taken from the left and without overlap, becomes `new`; the first
argument is the number of characters still covered by the last occurrence. -/
def substitute (old new : Text) : Nat → Text → Text
  | _, [] => []
  | n + 1, _ :: cs => substitute old new n cs
  | 0, c :: cs =>
    if old.isPrefixOf (c :: cs) then new ++ substitute old new (old.length - 1) cs
    else c :: substitute old new 0 cs

/-- Every occurrence of the non-empty text `old` becomes `new`. -/
def replace (old new t : Text) : Text := substitute old new 0 t

/-- The first occurrence of `old` is cut out. -/
def removeFirst (old : Text) : Text → Text
  | [] => []
  | c :: cs =>
    if old.isPrefixOf (c :: cs) then (c :: cs).drop old.length else c :: removeFirst old cs

/-- Does a text occur in another? -/
def mentions (part : Text) : Text → Bool
  | [] => part.isEmpty
  | c :: cs => part.isPrefixOf (c :: cs) || mentions part cs

/-- The pieces between the occurrences of a character; there is always one piece more than there
are occurrences. -/
def splitOn (sep : Char) : Text → List Text
  | [] => [[]]
  | c :: cs =>
    match splitOn sep cs with
    | [] => [[]]
    | p :: ps => if c = sep then [] :: p :: ps else (c :: p) :: ps

/-- The texts one after the other, with `sep` between neighbours. -/
def join (sep : Text) : List Text → Text
  | [] => []
  | [t] => t
  | t :: u :: ts => t ++ sep ++ join sep (u :: ts)

/-- The text from position `n` on; a negative position counts from the end. -/
def sliceFrom (t : Text) : Int → Text
  | .ofNat n => t.drop n
  | .negSucc n => t.drop (t.length - (n + 1))

/-- The number of digits that a number may be read from. -/
def maxDigits : Nat := 4300

/-- Decimal digits of a natural number. -/
def ofNat (n : Nat) : Text := Nat.toDigits 10 n

/-- Decimal digits of an integer, with a minus sign if it is negative. -/
def ofInt : Int → Text
  | .ofNat n => ofNat n
  | .negSucc n => '-' :: ofNat (n + 1)

end Text

end FeatureFile
