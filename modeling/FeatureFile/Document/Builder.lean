import FeatureFile.Document.Node

/-!
# Building a document

The nodes of the open rules form a stack, below them all the node of the surroundings. A comment
belongs to the document as a whole wherever it stands; every other token belongs to the innermost
open rule. A rule that closes leaves the stack first and is then turned into what it stands for,
so that it is gone even if that fails.
-/

namespace FeatureFile

/-- The nodes of the open rules, innermost first, and the comments so far. -/
structure DocumentBuilder where
  stack : List Node := [{ rule := .root }]
  comments : List Comment := []
  deriving Inhabited

namespace DocumentBuilder

/-- Adds an item to the innermost node. -/
def add (b : DocumentBuilder) (item : NodeItem) : DocumentBuilder × Option Refusal :=
  match b.stack with
  | [] => (b, some (.fault .noOpenRule))
  | top :: below => ({ b with stack := top.add item :: below }, none)

/-- Takes a token. -/
def read (b : DocumentBuilder) (t : Token) : DocumentBuilder × Option Refusal :=
  match t.reading with
  | none => (b, some (.fault .unrecognisedToken))
  | some reading =>
    if reading.kind = .comment then
      let comment := { location := t.location, text := reading.text.getD [] }
      ({ b with comments := b.comments ++ [comment] }, none)
    else b.add (.token reading.kind t)

/-- Closes the innermost rule. -/
def close (b : DocumentBuilder) : DocumentBuilder × Option Refusal :=
  match b.stack with
  | [] => (b, some (.fault .noOpenRule))
  | [_] => ({ b with stack := [] }, some (.fault .noOpenRule))
  | node :: top :: below =>
    let b := { b with stack := top :: below }
    match node.toItem with
    | .error refusal => (b, some refusal)
    | .ok item => b.add item

/-- Takes a call. -/
def receive : Call → DocumentBuilder → DocumentBuilder × Option Refusal
  | .opened rule, b => ({ b with stack := { rule } :: b.stack }, none)
  | .closed _, b => b.close
  | .read t, b => b.read t

/-- The document that was closed in the innermost open rule, with all comments. -/
def result (b : DocumentBuilder) : Except Fault (Option Document) :=
  match b.stack with
  | [] => .error .noOpenRule
  | top :: _ =>
    match top.first (.rule .document) with
    | some (.document feature) => .ok (some { feature, comments := b.comments })
    | _ => .ok none

/-- The rules on the stack, outermost first. -/
def rules (b : DocumentBuilder) : List Rule := (b.stack.map Node.rule).reverse

instance : Builder DocumentBuilder (Option Document) where
  reset _ := {}
  receive := receive
  result := result

end DocumentBuilder

end FeatureFile
