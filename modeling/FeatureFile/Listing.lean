import FeatureFile.Builder

/-!
# Token listings

A listing is a builder that ignores rules and lists tokens, one a line: place, kind, keyword,
text and items.
-/

namespace FeatureFile

/-- The tokens of a source so far. -/
structure Listing where
  tokens : List Token := []
  deriving Repr, DecidableEq, Inhabited

namespace Listing

/-- An item with its column. -/
def formatItem (i : Item) : Text := Text.ofNat i.column ++ [':'] ++ i.text

/-- The line of a token. -/
def formatToken (t : Token) : Text :=
  match t.line, t.reading with
  | none, _ => TokenKind.eof.name
  | some _, none => []
  | some _, some r =>
    "(".toList ++ Text.ofInt t.number ++ ":".toList ++ Text.ofNat t.column ++ ")".toList ++
      r.kind.name ++ ":".toList ++ r.keyword.getD [] ++ "/".toList ++ r.text.getD [] ++
      "/".toList ++ Text.join [','] (r.items.map formatItem)

/-- The listing as one text. -/
def text (l : Listing) : Text := Text.join ['\n'] (l.tokens.map formatToken)

/-- Takes a call; only tokens matter. -/
def receive : Call → Listing → Listing × Option Refusal
  | .read t, l => ({ tokens := l.tokens ++ [t] }, none)
  | _, l => (l, none)

instance : Builder Listing Text where
  reset _ := {}
  receive := receive
  result l := .ok l.text

end Listing

end FeatureFile
