import FeatureFile.Document.Builder
import FeatureFile.Proofs.Calls

/-!
# What stands between opening a rule and closing it

The calls of a parse are brackets: a rule is opened, its parts follow, it is closed. A `Part` is such
a bracketed piece, a token or a rule with its parts, and `Part.calls` tells it to a builder.

For the document builder the stack then disappears. Whatever it has gathered before, a part adds
something to the innermost node, to the comments and to the refusals, and nothing else changes
(`DocumentBuilder.feed_calls`). What it adds, its `Yield`, is computed from the part alone.
-/

namespace FeatureFile

/-- A token, or a rule with all that stands in it. -/
inductive Part where
  | token (token : Token)
  | node (rule : Rule) (parts : List Part)

namespace Part

mutual

/-- How a part is told to a builder. -/
def calls : Part → List Call
  | token t => [.read t]
  | node r ps => .opened r :: (callsAll ps ++ [.closed r])

def callsAll : List Part → List Call
  | [] => []
  | p :: ps => p.calls ++ callsAll ps

end

mutual

/-- The tokens of a part. -/
def tokens : Part → List Token
  | token t => [t]
  | node _ ps => tokensAll ps

def tokensAll : List Part → List Token
  | [] => []
  | p :: ps => p.tokens ++ tokensAll ps

end

@[simp] theorem callsAll_nil : callsAll [] = [] := rfl

@[simp] theorem callsAll_cons (p : Part) (ps : List Part) :
    callsAll (p :: ps) = p.calls ++ callsAll ps := rfl

@[simp] theorem callsAll_append (ps qs : List Part) :
    callsAll (ps ++ qs) = callsAll ps ++ callsAll qs := by
  induction ps with
  | nil => rfl
  | cons p ps ih => rw [List.cons_append, callsAll, callsAll, ih, List.append_assoc]

@[simp] theorem tokensAll_nil : tokensAll [] = [] := rfl

@[simp] theorem tokensAll_cons (p : Part) (ps : List Part) :
    tokensAll (p :: ps) = p.tokens ++ tokensAll ps := rfl

@[simp] theorem tokensAll_append (ps qs : List Part) :
    tokensAll (ps ++ qs) = tokensAll ps ++ tokensAll qs := by
  induction ps with
  | nil => rfl
  | cons p ps ih => rw [List.cons_append, tokensAll, tokensAll, ih, List.append_assoc]

@[simp] theorem tokens_token (t : Token) : (token t).tokens = [t] := rfl

@[simp] theorem tokens_node (r : Rule) (ps : List Part) : (node r ps).tokens = tokensAll ps := rfl

theorem tokensAll_flatMap {α : Type} (f : α → List Part) (xs : List α) :
    tokensAll (xs.flatMap f) = xs.flatMap fun x => tokensAll (f x) := by
  induction xs with
  | nil => rfl
  | cons x xs ih => rw [List.flatMap_cons, tokensAll_append, ih, List.flatMap_cons]

theorem tokensAll_map {α : Type} (f : α → Part) (xs : List α) :
    tokensAll (xs.map f) = xs.flatMap fun x => (f x).tokens := by
  induction xs with
  | nil => rfl
  | cons x xs ih => rw [List.map_cons, tokensAll_cons, ih, List.flatMap_cons]

theorem mem_tokensAll_map {α : Type} {f : α → Part} {xs : List α} {x : α} {t : Token} (hx : x ∈ xs)
    (ht : t ∈ (f x).tokens) : t ∈ tokensAll (xs.map f) := by
  rw [tokensAll_map]
  exact List.mem_flatMap.mpr ⟨x, hx, ht⟩

end Part

/-- What becomes of some parts: items for the node around them, comments of the document, and
refusals. -/
structure Yield where
  items : List NodeItem := []
  comments : List Comment := []
  refusals : List Refusal := []

namespace Yield

instance : Append Yield where
  append y z :=
    { items := y.items ++ z.items, comments := y.comments ++ z.comments,
      refusals := y.refusals ++ z.refusals }

@[simp] theorem items_append (y z : Yield) : (y ++ z).items = y.items ++ z.items := rfl

@[simp] theorem comments_append (y z : Yield) : (y ++ z).comments = y.comments ++ z.comments := rfl

@[simp] theorem refusals_append (y z : Yield) : (y ++ z).refusals = y.refusals ++ z.refusals := rfl

@[simp] theorem empty_append (y : Yield) : ({} : Yield) ++ y = y := rfl

theorem ext {y z : Yield} (hitems : y.items = z.items) (hcomments : y.comments = z.comments)
    (hrefusals : y.refusals = z.refusals) : y = z := by
  cases y
  cases z
  cases hitems
  cases hcomments
  cases hrefusals
  rfl

theorem append_assoc (x y z : Yield) : x ++ y ++ z = x ++ (y ++ z) :=
  ext (List.append_assoc ..) (List.append_assoc ..) (List.append_assoc ..)

@[simp] theorem append_empty (y : Yield) : y ++ {} = y :=
  ext (List.append_nil _) (List.append_nil _) (List.append_nil _)

/-- What becomes of a rule in which these items have been gathered. -/
def close (r : Rule) (y : Yield) : Yield :=
  match Node.toItem { rule := r, items := y.items } with
  | .ok item => { y with items := [item] }
  | .error refusal => { y with items := [], refusals := y.refusals ++ [refusal] }

theorem close_ok {r : Rule} {y : Yield} {item : NodeItem}
    (h : Node.toItem { rule := r, items := y.items } = .ok item) :
    y.close r = { y with items := [item] } := by
  rw [close, h]

theorem refusals_of_close {r : Rule} {y : Yield} (h : (y.close r).refusals = []) :
    y.refusals = [] ∧ ∃ item, Node.toItem { rule := r, items := y.items } = .ok item := by
  rw [close] at h
  cases hitem : Node.toItem { rule := r, items := y.items } with
  | ok item =>
      rw [hitem] at h
      exact ⟨h, item, rfl⟩
  | error refusal =>
      rw [hitem] at h
      exact absurd (List.append_eq_nil_iff.mp h).2 (List.cons_ne_nil _ _)

end Yield

/-- What becomes of a token. -/
def Token.yield (t : Token) : Yield :=
  match t.reading with
  | none => { refusals := [.fault .unrecognisedToken] }
  | some reading =>
    if reading.kind = .comment then
      { comments := [{ location := t.location, text := reading.text.getD [] }] }
    else { items := [.token reading.kind t] }

namespace Part

mutual

/-- What becomes of a part. -/
def yield : Part → Yield
  | token t => t.yield
  | node r ps => (yieldAll ps).close r

def yieldAll : List Part → Yield
  | [] => {}
  | p :: ps => p.yield ++ yieldAll ps

end

@[simp] theorem yield_token (t : Token) : (token t).yield = t.yield := rfl

@[simp] theorem yield_node (r : Rule) (ps : List Part) :
    (node r ps).yield = (yieldAll ps).close r := rfl

@[simp] theorem yieldAll_nil : yieldAll [] = {} := rfl

@[simp] theorem yieldAll_cons (p : Part) (ps : List Part) :
    yieldAll (p :: ps) = p.yield ++ yieldAll ps := rfl

@[simp] theorem yieldAll_append (ps qs : List Part) :
    yieldAll (ps ++ qs) = yieldAll ps ++ yieldAll qs := by
  induction ps with
  | nil => rfl
  | cons p ps ih => rw [List.cons_append, yieldAll, yieldAll, ih, Yield.append_assoc]

end Part

/-! ## The builder -/

namespace DocumentBuilder

/-- The builder with something more in its innermost node. -/
def gain (y : Yield) (b : DocumentBuilder) : DocumentBuilder :=
  match b.stack with
  | [] => b
  | top :: below =>
    { stack := { top with items := top.items ++ y.items } :: below
      comments := b.comments ++ y.comments }

theorem gain_gain (y z : Yield) (b : DocumentBuilder) : (b.gain y).gain z = b.gain (y ++ z) := by
  obtain ⟨stack, comments⟩ := b
  cases stack with
  | nil => rfl
  | cons top below => simp [gain]

theorem gain_stack_ne {y : Yield} {b : DocumentBuilder} (h : b.stack ≠ []) :
    (b.gain y).stack ≠ [] := by
  unfold gain
  split
  · exact h
  · exact List.cons_ne_nil _ _

theorem gain_empty (b : DocumentBuilder) : b.gain {} = b := by
  obtain ⟨stack, comments⟩ := b
  cases stack with
  | nil => rfl
  | cons top below => simp [gain]

theorem feed_read (t : Token) {b : DocumentBuilder} (h : b.stack ≠ []) :
    Builder.feed [.read t] b = (b.gain t.yield, t.yield.refusals) := by
  obtain ⟨stack, comments⟩ := b
  cases stack with
  | nil => exact absurd rfl h
  | cons top below =>
      simp only [Builder.feed, Builder.receive, receive, read, Token.yield]
      cases t.reading with
      | none => simp [gain]
      | some reading =>
          by_cases hkind : reading.kind = .comment
          · simp [gain, hkind]
          · simp [gain, hkind, add, Node.add]

/-- Closing a rule that has just been opened and has gathered something since. -/
theorem feed_closed (r : Rule) (y : Yield) {b : DocumentBuilder} (h : b.stack ≠ []) :
    (Builder.feed [.closed r] (gain y { b with stack := { rule := r } :: b.stack })).1 =
        b.gain (y.close r) ∧
      y.refusals ++ (Builder.feed [.closed r]
        (gain y { b with stack := { rule := r } :: b.stack })).2 = (y.close r).refusals := by
  obtain ⟨stack, comments⟩ := b
  cases stack with
  | nil => exact absurd rfl h
  | cons top below =>
      simp only [Builder.feed, Builder.receive, receive, gain, close, List.nil_append, Yield.close]
      cases Node.toItem { rule := r, items := y.items } with
      | ok item => simp [add, Node.add]
      | error refusal => simp

mutual

/-- A part adds what becomes of it to the innermost node, and leaves all else alone. -/
theorem feed_calls (p : Part) (b : DocumentBuilder) (h : b.stack ≠ []) :
    Builder.feed p.calls b = (b.gain p.yield, p.yield.refusals) := by
  match p with
  | .token t => exact feed_read t h
  | .node r ps =>
      have hopened : Builder.feed [.opened r] b =
          ({ b with stack := { rule := r } :: b.stack }, []) := rfl
      have hinner := feed_callsAll ps { b with stack := { rule := r } :: b.stack }
        (List.cons_ne_nil _ _)
      obtain ⟨hclosed, hrefusals⟩ := feed_closed r (Part.yieldAll ps) h
      rw [Part.calls, ← List.singleton_append, Builder.feed_append, hopened, Builder.feed_append,
        hinner, Part.yield_node, ← hclosed, ← hrefusals]
      rfl

theorem feed_callsAll (ps : List Part) (b : DocumentBuilder) (h : b.stack ≠ []) :
    Builder.feed (Part.callsAll ps) b = (b.gain (Part.yieldAll ps), (Part.yieldAll ps).refusals) := by
  match ps with
  | [] => rw [Part.callsAll_nil, Builder.feed_nil, Part.yieldAll_nil, gain_empty]
  | p :: ps =>
      have hfirst := feed_calls p b h
      have hrest := feed_callsAll ps (b.gain p.yield) (gain_stack_ne h)
      rw [Part.callsAll_cons, Builder.feed_append, hfirst, hrest, gain_gain]
      rfl

end

end DocumentBuilder

end FeatureFile
