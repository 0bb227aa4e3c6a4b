import FeatureFile.Fault
import FeatureFile.Reader

/-!
# Sources from bytes

A file is decoded block by block while it is read, and line ends are brought to one form. If its
bytes are not valid, the lines that were complete before the damaged block can still be read, and
the fault shows when the next line is asked for. Bytes at the end of a file that only begin a
character are found out at the end, so that every complete line in front of them can be read.
-/

namespace FeatureFile

/-- A source that has been opened: the lines that can be read, and whether they are all of it. -/
structure Intake where
  reader : Reader
  whole : Bool := true
  deriving Repr, DecidableEq, Inhabited

namespace Reader

/-- The next tokens, as many as asked for, read from the lines that were not looked at yet. -/
def take : Nat → Reader → List Token
  | 0, _ => []
  | n + 1, r => r.scan.1 :: take n r.scan.2

end Reader

namespace Intake

/-- A source given as a text. -/
def ofText (source : Text) : Intake := { reader := .ofText source }

/-- The number of bytes in a block. -/
def blockSize : Nat := 8192

/-- A byte that continues a character. -/
def continues (b : UInt8) : Bool := 0x80 ≤ b && b < 0xC0

/-- May the second byte of a character of at least three bytes follow the first one? Surrogates
are only refused once the third byte is there. -/
def follows (first second : UInt8) : Bool :=
  continues second &&
    ((first == 0xE0 && 0xA0 ≤ second) || (0xE1 ≤ first && first ≤ 0xEF) ||
      (first == 0xF0 && 0x90 ≤ second) || (0xF1 ≤ first && first ≤ 0xF3) ||
      (first == 0xF4 && second < 0x90))

/-- Do the bytes begin a character and leave it unfinished? -/
def isUnfinished : List UInt8 → Bool
  | [a] => 0xC2 ≤ a && a ≤ 0xF4
  | [a, b] => 0xE0 ≤ a && follows a b
  | [a, b, c] => 0xF0 ≤ a && follows a b && continues c
  | _ => false

/-- The text of the bytes without the last `n`, if those are an unfinished character. -/
def textBefore? (bytes : ByteArray) (n : Nat) : Option Text :=
  if n ≤ bytes.size && (n = 0 || isUnfinished (bytes.extract (bytes.size - n) bytes.size).toList)
  then (String.fromUTF8? (bytes.extract 0 (bytes.size - n))).map String.toList
  else none

/-- The text of the bytes up to an unfinished character at their end, if they are valid. -/
def textOf? (bytes : ByteArray) : Option Text := [0, 1, 2, 3].findSome? (textBefore? bytes)

/-- The text that is decoded before the fault shows: that of the longest valid row of blocks, at
most as many as asked for. -/
def soundText (bytes : ByteArray) : Nat → Text
  | 0 => []
  | blocks + 1 =>
    match textOf? (bytes.extract 0 (min bytes.size ((blocks + 1) * blockSize))) with
    | some t => t
    | none => soundText bytes blocks

/-- The text without a carriage return at its end, which may be the first half of a line end. -/
def settled (t : Text) : Text := if t.getLast? = some '\r' then t.dropLast else t

/-- The lines of a text that are known to be complete. -/
def completeLines (t : Text) : List Line :=
  (Text.lines (Text.unifyLineEnds (settled t))).filter fun l => l.getLast? = some '\n'

/-- The source in the bytes of a file. -/
def ofBytes (bytes : ByteArray) : Intake :=
  match String.fromUTF8? bytes with
  | some s => ofText (Text.unifyLineEnds s.toList)
  | none =>
    { reader := { unread := completeLines (soundText bytes (bytes.size / blockSize + 1)) },
      whole := false }

/-- The number of lines that can be read. -/
def size (i : Intake) : Nat := i.reader.unread.length

/-- Do the tokens up to that number come from lines that can be read, or from the end of a whole
source? -/
def covers (i : Intake) (n : Nat) : Bool := i.whole || n ≤ i.size

/-- The first tokens, as many as asked for. -/
def take (i : Intake) (n : Nat) : Except Fault (List Token) :=
  if i.covers n then .ok (i.reader.take n) else .error .badEncoding

end Intake

end FeatureFile
