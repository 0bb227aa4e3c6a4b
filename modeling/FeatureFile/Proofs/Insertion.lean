import FeatureFile.Proofs.Chomping
import FeatureFile.Proofs.Following

/-!
# Lines put into a source

A source with more lines in it is told to a parser like the old one, except for these lines: the
tokens in front of them stay, and those behind them move down. A matcher takes moved tokens for what
it took them before (`Taken.shift`), and a layout whose tokens are moved has the old value with its
locations moved (`Layout.Document.exists_shift`).

So whoever finds a way through the new lines, from the state in front of them to a state from which
the old way can be gone on, knows the outcome for the longer source (`Parser.parse_inserted`).
-/

namespace FeatureFile

/-! ## Sources -/

/-- The line with a line feed for its end. -/
def Line.ended (l : Line) : Line := Text.chomp l ++ ['\n']

namespace Text

/-- The longer text has the lines of the source, and the block of lines behind the first `k` of them.
How the lines end does not matter. -/
structure Inserts (block : List Line) (k : Nat) (source longer : Text) : Prop where
  le : k ≤ (lines source).length
  lines : (lines longer).map chomp =
    ((lines source).take k ++ (block ++ (lines source).drop k)).map chomp

theorem chomp_ended (l : Line) : chomp l.ended = chomp l := by
  rw [Line.ended, chomp, dropEnd_append _ (List.forall_mem_singleton.mpr rfl), chomp,
    dropEnd_dropEnd]

/-- Lines that all end with a line feed can be put below each other. -/
theorem lines_flatten_ended {ls : List Line} (h : ∀ l ∈ ls, '\n' ∉ chomp l) :
    Text.lines (ls.map Line.ended).flatten = ls.map Line.ended := by
  induction ls with
  | nil => rfl
  | cons l ls ih =>
      rw [List.forall_mem_cons] at h
      rw [List.map_cons, List.flatten_cons, Line.ended, List.append_assoc, List.singleton_append,
        lines_append h.1, ih h.2]

/-- The lines of a longer source as they are put below each other. -/
theorem Inserts.exists_canonical {block : List Line} {k : Nat} {source longer : Text}
    (h : Inserts block k source longer) : ∃ canonical,
      Text.lines canonical =
        ((Text.lines source).take k ++ (block ++ (Text.lines source).drop k)).map Line.ended ∧
      (Text.lines canonical).map chomp = (Text.lines longer).map chomp := by
  have hnewline : ∀ l ∈ (Text.lines source).take k ++ (block ++ (Text.lines source).drop k),
      '\n' ∉ chomp l := by
    intro l hl
    have hmem := List.mem_map_of_mem (f := chomp) hl
    rw [← h.lines] at hmem
    obtain ⟨l', hl', heq⟩ := List.mem_map.mp hmem
    rw [← heq]
    exact (oneLine_of_mem_lines hl').newline_not_mem_dropEnd rfl
  refine ⟨_, lines_flatten_ended hnewline, ?_⟩
  rw [lines_flatten_ended hnewline, List.map_map, h.lines]
  exact List.map_congr_left fun l _ => chomp_ended l

end Text

/-! ## Tokens -/

/-- Lines behind the first `k` move down. -/
def moveDown (k count : Nat) (n : Int) : Int := if n ≤ k then n else n + count

theorem moveDown_self (k count : Nat) : moveDown k count k = k := if_pos (Int.le_refl _)

theorem moveDown_lt {k count : Nat} {n n' : Int} (h : n < n') :
    moveDown k count n < moveDown k count n' := by
  unfold moveDown
  split <;> split <;> omega

namespace Reader

/-- The tokens that are made from lines. -/
def numbered (count : Nat) : List Line → List Token
  | [] => []
  | l :: ls => { number := count + 1, line := some l } :: numbered (count + 1) ls

theorem length_numbered (count : Nat) (ls : List Line) :
    (numbered count ls).length = ls.length := by
  induction ls generalizing count with
  | nil => rfl
  | cons l ls ih => rw [numbered, List.length_cons, List.length_cons, ih]

theorem numbered_append (count : Nat) (ls ls' : List Line) :
    numbered count (ls ++ ls') = numbered count ls ++ numbered (count + ls.length) ls' := by
  induction ls generalizing count with
  | nil => rfl
  | cons l ls ih =>
      rw [List.cons_append, numbered, ih, numbered, List.cons_append, List.length_cons,
        Nat.add_right_comm, Nat.add_assoc]

theorem fresh_ne_nil (count : Nat) (ls : List Line) : fresh count ls ≠ [] := by
  cases ls <;> exact List.cons_ne_nil _ _

theorem fresh_append (count : Nat) (ls ls' : List Line) :
    fresh count (ls ++ ls') = numbered count ls ++ fresh (count + ls.length) ls' := by
  induction ls generalizing count with
  | nil => rfl
  | cons l ls ih =>
      rw [List.cons_append, fresh, ih, numbered, List.cons_append, List.length_cons,
        Nat.add_right_comm, Nat.add_assoc]

variable {k c : Nat} {g : Line → Line}

/-- What is in front of the new lines keeps its numbers. -/
theorem numbered_shift {n : Nat} {ls : List Line} (h : n + ls.length ≤ k) :
    (numbered n ls).map (Token.shift (moveDown k c) g) = numbered n (ls.map g) := by
  induction ls generalizing n with
  | nil => rfl
  | cons l ls ih =>
      rw [List.length_cons] at h
      have hnumber : moveDown k c (n + 1) = n + 1 := if_pos (by omega)
      rw [numbered, List.map_cons, List.map_cons, numbered, ih (by omega), Token.shift, hnumber]
      rfl

/-- What is behind the new lines has moved down. -/
theorem fresh_shift {n : Nat} (ls : List Line) (h : k ≤ n) :
    (fresh n ls).map (Token.shift (moveDown k c) g) = fresh (n + c) (ls.map g) := by
  have hnumber : moveDown k c (n + 1) = (n + c : Nat) + 1 := by
    rw [moveDown, if_neg (by omega)]
    omega
  induction ls generalizing n with
  | nil =>
      rw [fresh, List.map_singleton, Token.shift, hnumber]
      rfl
  | cons l ls ih =>
      have hrest := ih (n := n + 1) (by omega) (by rw [moveDown, if_neg (by omega)]; omega)
      rw [fresh, List.map_cons, List.map_cons, fresh, hrest, Token.shift, hnumber,
        Nat.add_right_comm]
      rfl

end Reader

/-! ## Strides -/

/-- The stride on a token that has moved. -/
def Stride.shift (σ : Int → Int) (g : Line → Line) (x : Stride) : Stride :=
  { x with token := x.token.shift σ g }

variable {σ : Int → Int} {g : Line → Line}

theorem Stride.map_token_shift (xs : List Stride) :
    (xs.map (Stride.shift σ g)).map Stride.token = (xs.map Stride.token).map (Token.shift σ g) := by
  rw [List.map_map, List.map_map]
  rfl

theorem Stride.calls_shift (xs : List Stride) :
    (xs.map (Stride.shift σ g)).flatMap Stride.calls =
      (xs.flatMap Stride.calls).map (Call.shift σ g) := by
  rw [List.flatMap_map, List.map_flatMap]
  refine List.flatMap_congr fun x _ => ?_
  simp only [calls, Run.callsOf, List.map_append, List.map_map, Function.comp_def, List.map_cons,
    List.map_nil]
  rfl

namespace Trail

variable {s s' : State} {xs ys : List Stride}

theorem shift (h : Trail s xs s') : Trail s (xs.map (Stride.shift σ g)) s' := by
  induction h with
  | nil s => exact .nil s
  | cons ha ht _ ih => exact .cons ha ht ih

theorem split (h : Trail s (xs ++ ys) s') : ∃ mid, Trail s xs mid ∧ Trail mid ys s' := by
  induction xs generalizing s with
  | nil => exact ⟨s, .nil s, h⟩
  | cons x xs ih =>
      cases h with
      | cons ha ht rest =>
          obtain ⟨mid, hfront, hback⟩ := ih rest
          exact ⟨mid, .cons ha ht hfront, hback⟩

/-- The kinds along a trail to the last state are a word of the grammar. -/
theorem reads (h : Trail s xs .finished) : s.reads (xs.map fun x => x.move.kind) = true := by
  generalize hlast : State.finished = last at h
  induction h with
  | nil s =>
      subst hlast
      rfl
  | cons ha _ _ ih => exact State.reads_cons.mpr ⟨_, ha, rfl, ih hlast⟩

/-- The tokens along a trail through a whole document have a layout. -/
theorem exists_layout (h : Trail .start xs .finished) :
    ∃ x : Layout.Document, x.tokens = xs.map Stride.token := by
  refine Layout.document_covers _ ⟨_, (State.start.mem_words_iff_reads _).mpr h.reads, ?_⟩
  rw [List.map_map, List.map_map]
  exact List.map_congr_left fun x hx => (h.mem x hx).2

end Trail

theorem Matcher.ask_shift {m : Matcher} (hm : m.dialect ∈ Dialect.table)
    (hg : ∀ l, Text.chomp (g l) = Text.chomp l) (kind : TokenKind) (t : Token) :
    m.ask [] kind (t.shift σ g) = m.ask [] kind t := by
  rw [← ask_chomp hm, ← ask_chomp hm kind t]
  refine ask_congr ?_
  simp only [Token.chomp, Token.shift, Option.map_map, Function.comp_def, hg]

theorem Matcher.readLine_ended {m : Matcher} (hm : m.dialect ∈ Dialect.table) (kind : TokenKind)
    (l : Line) : m.readLine kind l.ended = m.readLine kind l := by
  rw [← readLine_chomp hm, Text.chomp_ended, readLine_chomp hm]

/-- A new line is taken as the matcher reads it, whatever its end. -/
theorem Stride.Taken.of_line {m next : Matcher} {x : Stride} {l : Line} {reading : Reading}
    (hm : m.dialect ∈ Dialect.table) (hline : x.token.line = some l.ended)
    (hreading : x.token.reading = some reading) (hmove : x.move ∈ x.state.moves)
    (hyes : m.readLine x.move.kind l = .yes reading next)
    (hbefore : ∀ a ∈ x.state.moves, x.state.rank a.kind < x.state.rank x.move.kind →
      m.readLine a.kind l = .no) : x.Taken m next := by
  have hask : ∀ kind, m.ask [] kind x.token = m.readLine kind l := fun kind =>
    (Matcher.ask_of_line hline rfl).trans (Matcher.readLine_ended hm kind l)
  refine ⟨⟨reading, hreading, (hask _).trans hyes⟩, fun kind hrank => ?_⟩
  obtain ⟨a, ha, rfl⟩ := State.exists_move_of_rank_lt hmove hrank
  exact (hask _).trans (hbefore a ha hrank)

namespace Taken

variable {m last : Matcher} {xs ys : List Stride}

/-- A matcher takes tokens that have moved as it took them before. -/
theorem shift (h : Taken m xs last) (hm : m.dialect ∈ Dialect.table)
    (hg : ∀ l, Text.chomp (g l) = Text.chomp l) : Taken m (xs.map (Stride.shift σ g)) last := by
  induction h with
  | nil m => exact .nil m
  | cons first _ ih =>
      obtain ⟨reading, hreading, hask⟩ := first.ask
      refine .cons ⟨⟨reading, hreading, ?_⟩, fun kind hrank => ?_⟩
        (ih ((Matcher.ask_yes hask).2.dialect_mem hm))
      · exact (Matcher.ask_shift hm hg _ _).trans hask
      · exact (Matcher.ask_shift hm hg _ _).trans (first.before kind hrank)

theorem append {mid : Matcher} (h : Taken m xs mid) (h' : Taken mid ys last) :
    Taken m (xs ++ ys) last := by
  induction h with
  | nil m => exact h'
  | cons first _ ih => exact .cons first (ih h')

theorem split (h : Taken m (xs ++ ys) last) : ∃ mid, Taken m xs mid ∧ Taken mid ys last := by
  induction xs generalizing m with
  | nil => exact ⟨m, .nil m, h⟩
  | cons x xs ih =>
      cases h with
      | cons first rest =>
          obtain ⟨mid, hfront, hback⟩ := ih rest
          exact ⟨mid, .cons first hfront, hback⟩

end Taken

/-! ## Layouts -/

namespace DocumentBuilder

theorem feed_shift (cs : List Call) (b : DocumentBuilder) :
    Builder.feed (cs.map (Call.shift σ g)) (b.shift σ g) =
      ((Builder.feed cs b).1.shift σ g, (Builder.feed cs b).2.map (Refusal.renumber σ)) := by
  induction cs generalizing b with
  | nil => rfl
  | cons c cs ih =>
      have hcall : Builder.receive (c.shift σ g) (b.shift σ g) = _ := receive_shift c b
      rw [List.map_cons, Builder.feed, Builder.feed, hcall, ih, List.map_append]
      cases (receive c b).2 <;> rfl

theorem result_shift (b : DocumentBuilder) : (b.shift σ g).result =
    b.result.map (Option.map (Document.relocate (Location.renumber σ))) := by
  obtain ⟨stack, comments⟩ := b
  rw [result, result]
  cases stack with
  | nil => rfl
  | cons top below =>
      simp only [shift, List.map_cons, Node.first_shift]
      rcases top.first (.rule .document) with _ | i
      · rfl
      · cases i <;> rfl

end DocumentBuilder

namespace Layout.Document

/-- What a layout means is a matter of its tokens. -/
theorem value_congr {x y : Document} (h : x.tokens = y.tokens) :
    (x.Valid ↔ y.Valid) ∧ (x.Valid → x.value = y.value) := by
  obtain ⟨xs, htrail, htokens, hcalls, _⟩ := x.exists_trail
  obtain ⟨ys, htrail', htokens', hcalls', _⟩ := y.exists_trail
  obtain rfl := htrail.unique htrail' (by rw [htokens, htokens', h])
  obtain ⟨hvalid, hvalue⟩ := DocumentBuilder.feed_layout x rfl
  obtain ⟨hvalid', hvalue'⟩ := DocumentBuilder.feed_layout y rfl
  rw [← hcalls, hcalls'] at hvalid hvalue
  refine ⟨hvalid.symm.trans hvalid', fun hx => ?_⟩
  have hy := hvalid'.mp (hvalid.mpr hx)
  exact Option.some.inj (Except.ok.inj ((hvalue hx).symm.trans (hvalue' hy)))

/-- Tokens that have moved have a layout, with the same value in another place. -/
theorem exists_shift (x : Document) (σ : Int → Int) (g : Line → Line) :
    ∃ y : Document, y.tokens = x.tokens.map (Token.shift σ g) ∧ (y.Valid ↔ x.Valid) ∧
      (x.Valid → y.value = x.value.relocate (Location.renumber σ)) := by
  obtain ⟨xs, htrail, htokens, hcalls, _⟩ := x.exists_trail
  obtain ⟨y, hy⟩ := (htrail.shift (σ := σ) (g := g)).exists_layout
  rw [Stride.map_token_shift, htokens] at hy
  obtain ⟨ys, htrail', htokens', hcalls', _⟩ := y.exists_trail
  obtain rfl := htrail'.unique htrail.shift
    (by rw [htokens', hy, Stride.map_token_shift, htokens])
  rw [Stride.calls_shift, hcalls] at hcalls'
  obtain ⟨hvalid, hvalue⟩ := DocumentBuilder.feed_layout x rfl
  obtain ⟨hvalid', hvalue'⟩ := DocumentBuilder.feed_layout y rfl
  have hfeed := DocumentBuilder.feed_shift (σ := σ) (g := g) (Part.callsAll x.parts)
    { stack := [{ rule := .document }, { rule := .root }] }
  have hstart : ({ stack := [{ rule := .document }, { rule := .root }] } : DocumentBuilder).shift σ g =
      { stack := [{ rule := .document }, { rule := .root }] } := rfl
  rw [hstart, hcalls'] at hfeed
  have hsame : y.Valid ↔ x.Valid := by
    rw [← hvalid, ← hvalid', hfeed, List.map_eq_nil_iff]
  refine ⟨y, hy, hsame, fun hx => ?_⟩
  have hresult := hvalue' (hsame.mpr hx)
  rw [hfeed] at hresult
  have hclose := DocumentBuilder.receive_shift (σ := σ) (g := g) (.closed .document)
    (Builder.feed (Part.callsAll x.parts)
      ({ stack := [{ rule := .document }, { rule := .root }] } : DocumentBuilder)).1
  have hmoved : Builder.result (Builder.receive (.closed .document)
      ((Builder.feed (Part.callsAll x.parts)
        ({ stack := [{ rule := .document }, { rule := .root }] } : DocumentBuilder)).1.shift σ g)).1 =
      (Except.ok (some x.value)).map (Option.map (FeatureFile.Document.relocate (Location.renumber σ))) := by
    rw [← hvalue hx]
    exact (congrArg (fun p => DocumentBuilder.result p.1) hclose).trans
      (DocumentBuilder.result_shift _)
  exact Option.some.inj (Except.ok.inj (hresult.symm.trans hmoved))

end Layout.Document

/-! ## Parses -/

namespace Parser

variable {parser : Parser DocumentBuilder} {matcher : Matcher} {source longer : Text}
  {block : List Line} {k : Nat}

/-- A parse without errors, cut behind the first `k` lines: the layout of the source, and the strides
in front of the cut and behind it, with the state and the matcher in between. -/
structure Cut (matcher : Matcher) (source : Text) (k : Nat) (x : Layout.Document)
    (front back : List Stride) (s : State) (m : Matcher) : Prop where
  valid : x.Valid
  tokens : x.tokens = front.map Stride.token ++ back.map Stride.token
  front_bare : (front.map Stride.token).map Token.bare =
    Reader.numbered 0 ((Text.lines source).take k)
  back_bare : (back.map Stride.token).map Token.bare = Reader.fresh k ((Text.lines source).drop k)
  front_trail : Trail .start front s
  back_trail : Trail s back .finished
  front_taken : Taken matcher.reset front m
  back_taken : ∃ last, Taken m back last

/-- A parse without errors can be cut behind every line. -/
theorem exists_cut (hmatcher : matcher.default ∈ Dialect.table) {d : Document}
    (h : (parser.parse matcher source).outcome = .ok (some d))
    (hk : k ≤ (Text.lines source).length) :
    ∃ x front back s m, d = x.value ∧ Cut matcher source k x front back s m := by
  obtain ⟨x, xs, last, htokens, hvalid, hvalue, htrail, htaken, hstrides, _, _⟩ := exists_layout h
  have hbare := built_bare hmatcher h
  have hsplit : Reader.fresh 0 (Text.lines source) =
      Reader.numbered 0 ((Text.lines source).take k) ++
        Reader.fresh k ((Text.lines source).drop k) := by
    conv => lhs; rw [← List.take_append_drop k (Text.lines source)]
    rw [Reader.fresh_append, List.length_take, Nat.min_eq_left hk, Nat.zero_add]
  rw [← htokens, ← hstrides, List.map_map, hsplit] at hbare
  obtain ⟨front, back, rfl, hfront, hback⟩ := List.map_eq_append_iff.mp hbare
  obtain ⟨s, hfrontTrail, hbackTrail⟩ := htrail.split
  obtain ⟨m, hfrontTaken, hbackTaken⟩ := htaken.split
  rw [List.map_append] at hstrides
  rw [← List.map_map] at hfront hback
  exact ⟨x, front, back, s, m, Option.some.inj hvalue, hvalid, hstrides.symm, hfront, hback,
    hfrontTrail, hbackTrail, hfrontTaken, last, hbackTaken⟩

namespace Cut

variable {x : Layout.Document} {front back : List Stride} {s : State} {m : Matcher}

theorem bare (h : Cut matcher source k x front back s m) (hk : k ≤ (Text.lines source).length) :
    x.tokens.map Token.bare = Reader.fresh 0 (Text.lines source) := by
  conv => rhs; rw [← List.take_append_drop k (Text.lines source)]
  rw [h.tokens, List.map_append, h.front_bare, h.back_bare, Reader.fresh_append, List.length_take,
    Nat.min_eq_left hk, Nat.zero_add]

theorem length_front (h : Cut matcher source k x front back s m)
    (hk : k ≤ (Text.lines source).length) : front.length = k := by
  have hlength := congrArg List.length h.front_bare
  rw [List.length_map, List.length_map, Reader.length_numbered, List.length_take,
    Nat.min_eq_left hk] at hlength
  exact hlength

theorem numbers (h : Cut matcher source k x front back s m) (hk : k ≤ (Text.lines source).length) :
    x.tokens.map Token.number =
      (List.range' 1 ((Text.lines source).length + 1)).map Int.ofNat := by
  have hnumbers := congrArg (List.map Token.number) (h.bare hk)
  rw [List.map_map, Reader.fresh_number] at hnumbers
  exact hnumbers

theorem number_pos (h : Cut matcher source k x front back s m)
    (hk : k ≤ (Text.lines source).length) : ∀ t ∈ x.tokens, 0 < t.number := by
  intro t ht
  have hmem := List.mem_map_of_mem (f := Token.number) ht
  rw [h.numbers hk] at hmem
  obtain ⟨i, hi, hnumber⟩ := List.mem_map.mp hmem
  rw [← hnumber]
  exact Int.ofNat_lt.mpr (List.mem_range'_1.mp hi).1

/-- Tokens that have moved down have numbers of their own. -/
theorem nodup_shift (h : Cut matcher source k x front back s m)
    (hk : k ≤ (Text.lines source).length) {w : Layout.Document} {count : Nat}
    (hw : w.tokens = x.tokens.map (Token.shift (moveDown k count) Line.ended)) :
    (w.tokens.map Token.number).Nodup := by
  have hmoved : w.tokens.map Token.number = (x.tokens.map Token.number).map (moveDown k count) := by
    rw [hw, List.map_map, List.map_map]
    rfl
  have hless : ((x.tokens.map Token.number).map (moveDown k count)).Pairwise (· < ·) := by
    rw [h.numbers hk, List.pairwise_map, List.pairwise_map]
    exact List.Pairwise.imp (fun hlt => moveDown_lt (Int.ofNat_lt.mpr hlt)) List.pairwise_lt_range'
  rw [hmoved]
  exact hless.imp fun hlt => hlt.ne

/-- The last stride in front of the cut is over the line in front of it. -/
theorem exists_last (h : Cut matcher source k x front back s m)
    (hk : k ≤ (Text.lines source).length) (hpos : 0 < k) :
    ∃ (front' : List Stride) (z : Stride), front = front' ++ [z] ∧ z.token.number = k := by
  have hlength : ((Text.lines source).take k).length = k := by
    rw [List.length_take, Nat.min_eq_left hk]
  have hfront := h.front_bare
  rcases List.eq_nil_or_concat ((Text.lines source).take k) with hnil | ⟨ls, l, hls⟩
  · rw [hnil, List.length_nil] at hlength
    exact absurd hlength.symm hpos.ne'
  · rw [hls, List.concat_eq_append, List.length_append, List.length_singleton] at hlength
    rw [hls, List.concat_eq_append, Reader.numbered_append, List.map_map] at hfront
    obtain ⟨front', last, rfl, _, hlast⟩ := List.map_eq_append_iff.mp hfront
    obtain ⟨z, rest, rfl, hz, hrest⟩ := List.map_eq_cons_iff.mp hlast
    obtain rfl := List.map_eq_nil_iff.mp hrest
    refine ⟨front', z, rfl, ?_⟩
    have hnumber : z.token.number = ((0 + ls.length : Nat) : Int) + 1 := congrArg Token.number hz
    omega

/-- The end of the source is behind the cut. -/
theorem ne_finished (h : Cut matcher source k x front back s m) : s ≠ .finished := by
  rintro rfl
  have hback := h.back_trail
  cases hback with
  | nil => exact Reader.fresh_ne_nil _ _ h.back_bare.symm
  | cons ha => cases ha

/-- A layout with the tokens of the source and those of a block between them, and a way through it
that the matcher takes, tell the outcome for the longer source. -/
theorem parse_inserted (h : Cut matcher source k x front back s m)
    (hmatcher : matcher.default ∈ Dialect.table) (hinserts : Text.Inserts block k source longer)
    {new : List Token} (hnew : new.map Token.bare = Reader.numbered k (block.map Line.ended))
    (y : Layout.Document) (hvalid : y.Valid)
    (htokens : y.tokens =
      (front.map Stride.token).map (Token.shift (moveDown k block.length) Line.ended) ++
        (new ++ (back.map Stride.token).map (Token.shift (moveDown k block.length) Line.ended)))
    {ys : List Stride} {last : Matcher} (htrail : Trail .start ys .finished)
    (hstrides : ys.map Stride.token = y.tokens) (htaken : Taken matcher.reset ys last) :
    (parser.parse matcher longer).outcome = .ok (some y.value) := by
  obtain ⟨canonical, hlines, hchomp⟩ := hinserts.exists_canonical
  rw [← outcome_eq_of_chomp DocumentBuilder.ignoresEnds hmatcher hchomp]
  refine parse_taken hmatcher y hvalid ?_ htrail hstrides htaken
  have hbare : ∀ ts : List Token,
      (ts.map (Token.shift (moveDown k block.length) Line.ended)).map Token.bare =
        (ts.map Token.bare).map (Token.shift (moveDown k block.length) Line.ended) := by
    intro ts
    rw [List.map_map, List.map_map]
    rfl
  rw [htokens, List.map_append, List.map_append, hbare, hbare, h.front_bare, hnew, h.back_bare,
    Reader.numbered_shift (by rw [List.length_take]; omega), Reader.fresh_shift _ (Nat.le_refl k),
    hlines, List.map_append, List.map_append, Reader.fresh_append, Reader.fresh_append,
    List.length_map, List.length_map, List.length_take, Nat.min_eq_left hinserts.le, Nat.zero_add]

end Cut

end Parser

end FeatureFile
