import FeatureFile.Token
import FeatureFile.Text.Lines

/-!
# Readers

A reader hands out the lines of a source as tokens, numbered from one, and then the end of the
input, as often as it is asked. It also allows to look ahead: the tokens looked at are kept in a
queue and handed out, with the readings they were given, before any further line is read.
-/

namespace FeatureFile

/-- A source under way. -/
structure Reader where
  /-- Tokens that were looked at and not handed out yet. -/
  queue : List Token := []
  /-- Lines that were not looked at yet. -/
  unread : List Line
  /-- The number of the last token made from a line or from the end of the input. -/
  count : Nat := 0
  deriving Repr, DecidableEq, Inhabited

/-- What a look at a token tells. -/
inductive Glance where
  /-- It is what one looks for. -/
  | found
  /-- One has to look on. -/
  | passed
  /-- It is something else. -/
  | blocked
  deriving Repr, DecidableEq, Inhabited

namespace Reader

/-- A reader at the start of a source. -/
def ofText (source : Text) : Reader := { unread := Text.lines source }

/-- The number of lines and queued tokens left. -/
def size (r : Reader) : Nat := r.queue.length + r.unread.length

/-- Reads one token from the lines that were not looked at yet. -/
def scan (r : Reader) : Token × Reader :=
  match r.unread with
  | [] => ({ number := r.count + 1, line := none }, { r with count := r.count + 1 })
  | l :: ls =>
    ({ number := r.count + 1, line := some l }, { r with unread := ls, count := r.count + 1 })

/-- Hands out the next token: a queued one if there is any. -/
def next (r : Reader) : Token × Reader :=
  match r.queue with
  | [] => r.scan
  | t :: ts => (t, { r with queue := ts })

/-- What looking ahead came to: whether it found what it looked for, the tokens it looked at, and
the reader without them. -/
structure Outlook where
  found : Bool
  seen : List Token
  reader : Reader
  deriving Repr, DecidableEq, Inhabited

/-- Looks at unread lines until a token is found or blocks the view. The end of the input always
blocks it. -/
def lookUnread (look : Token → Glance × Token) (count : Nat) : List Line → Outlook
  | [] =>
    { found := false, seen := [(look { number := count + 1, line := none }).2],
      reader := { unread := [], count := count + 1 } }
  | l :: ls =>
    match look { number := count + 1, line := some l } with
    | (.found, t) =>
      { found := true, seen := [t], reader := { unread := ls, count := count + 1 } }
    | (.blocked, t) =>
      { found := false, seen := [t], reader := { unread := ls, count := count + 1 } }
    | (.passed, t) =>
      let further := lookUnread look (count + 1) ls
      { further with seen := t :: further.seen }

/-- Looks at queued tokens first and at unread lines then. -/
def lookQueued (look : Token → Glance × Token) (unread : List Line) (count : Nat) :
    List Token → Outlook
  | [] => lookUnread look count unread
  | q :: qs =>
    match look q with
    | (.found, t) => { found := true, seen := [t], reader := { queue := qs, unread, count } }
    | (.blocked, t) => { found := false, seen := [t], reader := { queue := qs, unread, count } }
    | (.passed, t) =>
      let further := lookQueued look unread count qs
      { further with seen := t :: further.seen }

/-- Looks ahead and puts the tokens looked at at the end of the queue. -/
def lookAhead (look : Token → Glance × Token) (r : Reader) : Bool × Reader :=
  let outlook := lookQueued look r.unread r.count r.queue
  (outlook.found, { outlook.reader with queue := outlook.reader.queue ++ outlook.seen })

end Reader

end FeatureFile
