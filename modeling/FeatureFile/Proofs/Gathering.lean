import FeatureFile.Proofs.Layout

/-!
# Gathering from the tokens of a layout

What is said of a document token by token, such as which tags there are or which lines are blank, is
gathered along the parts of its layout (`Part.gather`). Parts in a row and parts in a rule are
gathered one after the other, so it is enough to look at single tokens; and as most phrases hold few
kinds of tokens (`Part.Kinds`), for most of them there is nothing to look at.
-/

namespace FeatureFile

namespace Part

/-- What the tokens of some parts give, one after the other. -/
def gather {α : Type} (f : Token → List α) (ps : List Part) : List α := (tokensAll ps).flatMap f

section Gather

variable {α : Type} (f : Token → List α)

@[simp] theorem gather_nil : gather f [] = [] := rfl

@[simp] theorem gather_append (ps qs : List Part) :
    gather f (ps ++ qs) = gather f ps ++ gather f qs := by
  rw [gather, tokensAll_append, List.flatMap_append]
  rfl

@[simp] theorem gather_node (r : Rule) (ps qs : List Part) :
    gather f (.node r ps :: qs) = gather f ps ++ gather f qs := by
  rw [gather, tokensAll_cons, List.flatMap_append]
  rfl

@[simp] theorem gather_token (t : Token) (ps : List Part) :
    gather f (.token t :: ps) = f t ++ gather f ps := by
  rw [gather, tokensAll_cons, tokens_token, List.flatMap_append, List.flatMap_singleton]
  rfl

theorem gather_map {β : Type} (g : β → Part) (xs : List β) :
    gather f (xs.map g) = xs.flatMap fun x => gather f [g x] := by
  induction xs with
  | nil => rfl
  | cons x xs ih =>
      rw [List.map_cons, ← List.singleton_append, gather_append, ih, List.flatMap_cons]

theorem gather_flatMap {β : Type} (g : β → List Part) (xs : List β) :
    gather f (xs.flatMap g) = xs.flatMap fun x => gather f (g x) := by
  rw [gather, tokensAll_flatMap, List.flatMap_assoc]
  rfl

/-- Phrases in a row change one by one. -/
theorem tokensAll_change {β : Type} {f : Token → List Token} {g : β → Part} {e : β → β} {xs : List β}
    (h : ∀ x ∈ xs, (g (e x)).tokens = gather f [g x]) :
    tokensAll ((xs.map e).map g) = gather f (xs.map g) := by
  rw [gather_map, tokensAll_map, List.flatMap_map]
  exact List.flatMap_congr h

end Gather

/-- All tokens of the parts are of these kinds. -/
def Kinds (ks : List TokenKind) (ps : List Part) : Prop :=
  ∀ t ∈ tokensAll ps, ∃ k ∈ ks, t.kind? = some k

namespace Kinds

variable {ks ks' : List TokenKind} {ps qs : List Part}

theorem nil : Kinds ks [] := fun _ h => by cases h

theorem mono (h : Kinds ks ps) (hsub : ks ⊆ ks') : Kinds ks' ps := fun t ht =>
  have ⟨k, hk, hkind⟩ := h t ht
  ⟨k, hsub hk, hkind⟩

theorem append (h : Kinds ks ps) (h' : Kinds ks qs) : Kinds ks (ps ++ qs) := by
  intro t ht
  rw [tokensAll_append] at ht
  exact (List.mem_append.mp ht).elim (h t) (h' t)

theorem node {r : Rule} (h : Kinds ks ps) : Kinds ks [.node r ps] := by
  intro t ht
  rw [tokensAll_cons, tokens_node, tokensAll_nil, List.append_nil] at ht
  exact h t ht

theorem map {α : Type} {f : α → Part} {xs : List α} (h : ∀ x, Kinds ks [f x]) :
    Kinds ks (xs.map f) := by
  induction xs with
  | nil => exact nil
  | cons x xs ih => exact (h x).append ih

/-- Tokens that give nothing are passed over. -/
theorem gather_eq_nil {α : Type} {f : Token → List α} (h : Kinds ks ps)
    (hf : ∀ t, ∀ k ∈ ks, t.kind? = some k → f t = []) : gather f ps = [] :=
  List.flatMap_eq_nil_iff.mpr fun t ht =>
    have ⟨k, hk, hkind⟩ := h t ht
    hf t k hk hkind

/-- Tokens that give themselves stay as they are. -/
theorem gather_eq_self {f : Token → List Token} (h : Kinds ks ps)
    (hf : ∀ t ∈ tokensAll ps, ∀ k ∈ ks, t.kind? = some k → f t = [t]) :
    gather f ps = tokensAll ps := by
  have hall : gather f ps = (tokensAll ps).flatMap fun t => [t] :=
    List.flatMap_congr fun t ht =>
      have ⟨k, hk, hkind⟩ := h t ht
      hf t ht k hk hkind
  rw [hall, List.flatMap_singleton']

end Kinds

end Part

namespace Layout

open FeatureFile.Part (Kinds)

variable {kind : TokenKind}

theorem Leaf.kinds (x : Leaf kind) : Kinds [kind] [x.part] := by
  intro t ht
  rw [List.mem_singleton.mp ht]
  exact ⟨kind, List.mem_singleton_self kind, x.kind_eq⟩

theorem Leaf.kinds_of_mem {ks : List TokenKind} (x : Leaf kind) (h : kind ∈ ks) :
    Kinds ks [x.part] :=
  x.kinds.mono (List.cons_subset.mpr ⟨h, List.nil_subset _⟩)

theorem Leaf.kinds_cons {ks : List TokenKind} {ps : List Part} (x : Leaf kind) (h : kind ∈ ks)
    (h' : Kinds ks ps) : Kinds ks (x.part :: ps) :=
  (x.kinds_of_mem h).append h'

theorem Gap.kinds (x : Gap) : Kinds [.comment, .empty] [x.part] := by
  cases x with
  | comment x => exact x.kinds_of_mem (by decide)
  | blank x => exact x.kinds_of_mem (by decide)

theorem kinds_gaps (xs : List Gap) : Kinds [.comment, .empty] (xs.map Gap.part) := .map Gap.kinds

theorem Head.kinds (x : Head kind) : Kinds [kind, .comment, .empty, .other] x.parts := by
  have hlines : Kinds [kind, .comment, .empty, .other] x.description := by
    rw [Head.description]
    split
    · exact .nil
    · exact .node (.map fun y => y.kinds_of_mem (by simp))
  refine x.title.kinds_cons (by simp) ?_
  refine .append (.map fun y => y.kinds_of_mem (by simp)) (hlines.append ?_)
  cases x.remarks with
  | none => exact .nil
  | some r =>
      exact r.1.kinds_cons (by simp) ((kinds_gaps r.2).mono (by simp))

theorem Table.kinds (x : Table) : Kinds [.tableRow, .comment, .empty] x.parts := by
  refine x.first.kinds_cons (by decide) (.map fun y => ?_)
  cases y with
  | row y => exact y.kinds_of_mem (by decide)
  | gap y => exact y.kinds.mono (by decide)

theorem Argument.kinds (x : Argument) :
    Kinds [.tableRow, .docStringSeparator, .comment, .empty, .other] [x.part] := by
  cases x with
  | table x => exact .node (x.kinds.mono (by decide))
  | docString x =>
      refine .node (x.opener.kinds_cons (by decide) ?_)
      refine .append (.map fun y => y.kinds_of_mem (by decide)) ?_
      exact x.closer.kinds_cons (by decide) ((kinds_gaps x.gaps).mono (by decide))

theorem Step.kinds (x : Step) :
    Kinds [.stepLine, .tableRow, .docStringSeparator, .comment, .empty, .other] [x.part] := by
  refine .node (x.line.kinds_cons (by decide) ?_)
  exact ((kinds_gaps x.gaps).mono (by decide)).append
    (.map fun y => y.kinds.mono (by decide))

theorem TagLine.kinds (x : TagLine) : Kinds [.tagLine, .comment, .empty] x.parts :=
  x.line.kinds_cons (by decide) ((kinds_gaps x.gaps).mono (by decide))

theorem kinds_tags (xs : List TagLine) : Kinds [.tagLine, .comment, .empty] (tagParts xs) := by
  have hlines : Kinds [.tagLine, .comment, .empty] (xs.flatMap TagLine.parts) := by
    induction xs with
    | nil => exact .nil
    | cons x xs ih => exact x.kinds.append ih
  rw [tagParts]
  split
  · exact .nil
  · exact .node hlines

theorem Examples.kinds (x : Examples) :
    Kinds [.tagLine, .examplesLine, .tableRow, .comment, .empty, .other] [x.part] := by
  refine .node (((kinds_tags x.tags).mono (by decide)).append (.node ?_))
  exact (x.head.kinds.mono (by decide)).append (.map fun t => .node (t.kinds.mono (by decide)))

theorem Background.kinds (x : Background) : Kinds [.backgroundLine, .stepLine, .tableRow,
    .docStringSeparator, .comment, .empty, .other] [x.part] :=
  .node ((x.head.kinds.mono (by decide)).append (.map fun y => y.kinds.mono (by decide)))

theorem kinds_header (x : Option (Leaf .language × List Gap)) : Kinds [.language, .comment, .empty]
    (x.elim [] fun h => h.1.part :: h.2.map Gap.part) := by
  cases x with
  | none => exact .nil
  | some h =>
      exact h.1.kinds_cons (by decide) ((kinds_gaps h.2).mono (by decide))

end Layout

end FeatureFile
