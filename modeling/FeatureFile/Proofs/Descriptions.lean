import FeatureFile.Proofs.BlankLines
import FeatureFile.Proofs.ReadBack

/-!
# Descriptions

Below the title of a block there may be free text, which becomes the description of the block. It goes
from the first line that is not blank up to a comment or a line that the block goes on with
(`Block.freeLines`). What these lines are depends on the block: a bar is free text in a scenario and a
row among examples.

Blank lines around the text do not belong to it, but two notions of a blank line are at work. In front
of the text a line of spaces is blank. At the end it is not, there only void lines are left out, which
have nothing in front of their line end. So a description may end with lines of spaces
(`Parser.description_ends_blank`), and how it comes out then is said by `Titled.Described`: it is
trimmed as it should be if every blank line behind the text is void, and only then.

That the free text is found where the title is comes from the strides of the parse: blank lines and
free text below a title are read in states of its block, and the line that ends them is what no free
text may be (`Trail.freeLines_eq`). In a layout every block stands with all of its free text, since
nothing that may follow a head starts with a blank line or with free text (`Titled.StandsIn`).
-/

namespace FeatureFile

/-! ## Free text -/

namespace Line

/-- Nothing in front of the line end. A line of blanks is not void. -/
def isVoid (l : Line) : Bool := (Text.chomp l).isEmpty

/-- A description from its lines, without those at the end that count as empty. -/
def describe (isEmpty : Line → Bool) (run : List Line) : Option Text :=
  if run.isEmpty then none
  else some (Text.join ['\n'] ((run.rdropWhile isEmpty).map Text.chomp))

end Line

namespace Block

/-- The kinds of line at which the free text below the title of a block ends. -/
def interrupts : Block → List TokenKind
  | feature => [.comment, .tagLine, .backgroundLine, .scenarioLine, .scenarioOutlineLine]
  | background | scenario =>
    [.comment, .stepLine, .tagLine, .scenarioLine, .scenarioOutlineLine]
  | outline =>
    [.comment, .stepLine, .tagLine, .examplesLine, .scenarioLine, .scenarioOutlineLine]
  | examples =>
    [.comment, .tableRow, .tagLine, .examplesLine, .scenarioLine, .scenarioOutlineLine]

/-- Is the line free text below the title of the block? -/
def isFree (m : Matcher) (b : Block) (l : Line) : Bool :=
  b.interrupts.all fun kind => m.readLine kind l = .no

/-- The free text of a block, of which these are the lines below the title. -/
def freeLines (m : Matcher) (b : Block) (ls : List Line) : List Line :=
  (ls.dropWhile Line.isBlank).takeWhile (b.isFree m)

end Block

/-- A block of a document: where its title is, and its description. -/
structure Titled where
  block : Block
  location : Location
  description : Option Text

def Background.titled (x : Background) : Titled := ⟨.background, x.location, x.description⟩

def Examples.titled (x : Examples) : Titled := ⟨.examples, x.location, x.description⟩

def ScenarioDefinition.titled : ScenarioDefinition → List Titled
  | .scenario x => [⟨.scenario, x.location, x.description⟩]
  | .outline x => ⟨.outline, x.location, x.description⟩ :: x.examples.map Examples.titled

/-- All blocks of a feature. -/
def Feature.titled (x : Feature) : List Titled :=
  ⟨.feature, x.location, x.description⟩ ::
    (x.background.toList.map Background.titled ++ x.scenarios.flatMap ScenarioDefinition.titled)

/-- The free text below the title of a block in a source of these lines. -/
def Titled.freeLines (m : Matcher) (ls : List Line) (x : Titled) : List Line :=
  x.block.freeLines m (ls.drop x.location.line.toNat)

/-- The title of a block is at its location, and the description is the free text below it, without
void lines at the end. -/
structure Titled.Described (m : Matcher) (ls : List Line) (x : Titled) : Prop where
  title : ∃ l, x.location.Names ls l ∧ (m.readLine x.block.kind l).isYes = true
  description : x.description = Line.describe Line.isVoid (x.freeLines m ls)
  first : ∀ t ∈ x.description, Line.isBlank (t.takeWhile (· ≠ '\n')) = false
  /-- Blank lines at the end are left out if they are void, and only then. -/
  trimmed : x.description = Line.describe Line.isBlank (x.freeLines m ls) ↔
    ∀ l ∈ (x.freeLines m ls).rtakeWhile Line.isBlank, l.isVoid = true
  last : (∀ t ∈ x.description, Line.isBlank (t.rtakeWhile (· ≠ '\n')) = false) ↔
    ∀ l ∈ (x.freeLines m ls).rtakeWhile Line.isBlank, l.isVoid = true

/-! ## Lines at the end -/

section AtTheEnd

variable {α : Type} {p q : α → Bool}

theorem dropWhile_dropWhile (h : ∀ a, p a = true → q a = true) (as : List α) :
    (as.dropWhile p).dropWhile q = as.dropWhile q := by
  induction as with
  | nil => rfl
  | cons a as ih =>
      by_cases ha : p a = true
      · rw [List.dropWhile_cons_of_pos ha, List.dropWhile_cons_of_pos (h a ha), ih]
      · rw [List.dropWhile_cons_of_neg ha]

theorem rdropWhile_rdropWhile (h : ∀ a, p a = true → q a = true) (as : List α) :
    (as.rdropWhile p).rdropWhile q = as.rdropWhile q := by
  rw [List.rdropWhile, List.rdropWhile, List.rdropWhile, List.reverse_reverse,
    dropWhile_dropWhile h]

/-- Two ways to drop items agree if what one of them drops is dropped by the other too. -/
theorem dropWhile_eq_iff (h : ∀ a, p a = true → q a = true) (as : List α) :
    as.dropWhile p = as.dropWhile q ↔ ∀ a ∈ as.takeWhile q, p a = true := by
  induction as with
  | nil => simp
  | cons a as ih =>
      by_cases hq : q a = true
      · rw [List.dropWhile_cons_of_pos hq, List.takeWhile_cons_of_pos hq, List.forall_mem_cons]
        by_cases hp : p a = true
        · rw [List.dropWhile_cons_of_pos hp, ih, and_iff_right hp]
        · refine iff_of_false (fun heq => ?_) fun hall => hp hall.1
          rw [List.dropWhile_cons_of_neg hp] at heq
          have hle := (as.dropWhile_sublist q).length_le
          rw [← heq, List.length_cons] at hle
          omega
      · rw [List.dropWhile_cons_of_neg hq, List.dropWhile_cons_of_neg (mt (h a) hq),
          List.takeWhile_cons_of_neg hq]
        simp

theorem rdropWhile_eq_iff (h : ∀ a, p a = true → q a = true) (as : List α) :
    as.rdropWhile p = as.rdropWhile q ↔ ∀ a ∈ as.rtakeWhile q, p a = true := by
  rw [List.rdropWhile, List.rdropWhile, List.reverse_inj, dropWhile_eq_iff h, List.rtakeWhile]
  simp only [List.mem_reverse]

end AtTheEnd

theorem Text.takeWhile_join {t : Text} (ht : '\n' ∉ t) (ts : List Text) :
    (join ['\n'] (t :: ts)).takeWhile (· ≠ '\n') = t := by
  have hall : ∀ c ∈ t, decide (c ≠ '\n') = true := fun c hc =>
    decide_eq_true fun hnew => ht (hnew ▸ hc)
  cases ts with
  | nil => exact List.takeWhile_eq_self_iff.mpr hall
  | cons u ts =>
      rw [join, List.append_assoc, List.takeWhile_append_of_pos hall, List.singleton_append,
        List.takeWhile_cons_of_neg (by simp), List.append_nil]

theorem Text.join_concat {sep t : Text} {ts : List Text} (hne : ts ≠ []) :
    join sep (ts ++ [t]) = join sep ts ++ (sep ++ t) := by
  induction ts with
  | nil => exact absurd rfl hne
  | cons u ts ih =>
      cases ts with
      | nil => exact List.append_assoc u sep t
      | cons v ts =>
          rw [List.cons_append, List.cons_append, join, ← List.cons_append,
            ih (List.cons_ne_nil _ _), join, List.append_assoc (u ++ sep)]

theorem Text.rtakeWhile_join {t : Text} (ht : '\n' ∉ t) (ts : List Text) :
    (join ['\n'] (ts ++ [t])).rtakeWhile (· ≠ '\n') = t := by
  have hall : ∀ c ∈ t.reverse, decide (c ≠ '\n') = true := fun c hc =>
    decide_eq_true fun hnew => ht (hnew ▸ List.mem_reverse.mp hc)
  by_cases hts : ts = []
  · rw [hts, List.nil_append, join, List.rtakeWhile, List.takeWhile_eq_self_iff.mpr hall,
      List.reverse_reverse]
  · rw [join_concat hts, List.rtakeWhile, List.reverse_append, List.reverse_append,
      List.append_assoc, List.takeWhile_append_of_pos hall, List.reverse_singleton,
      List.singleton_append, List.takeWhile_cons_of_neg (by simp), List.append_nil,
      List.reverse_reverse]

namespace Line

variable {l : Line} {run : List Line}

theorem newline_not_mem_chomp (h : Text.OneLine l) : '\n' ∉ Text.chomp l :=
  h.newline_not_mem_dropEnd rfl

theorem isBlank_of_isVoid (l : Line) (h : l.isVoid = true) : l.isBlank = true := by
  by_contra hblank
  exact chomp_ne_nil (Bool.eq_false_iff.mpr hblank) (List.isEmpty_iff.mp h)

theorem exists_rdropWhile {p : Line → Bool} (hp : ∀ l, p l = true → l.isBlank = true)
    (hl : l.isBlank = false) (ls : List Line) : ∃ rest, (l :: ls).rdropWhile p = l :: rest := by
  cases hkept : (l :: ls).rdropWhile p with
  | nil =>
      have hall := List.rdropWhile_eq_nil_iff.mp hkept l List.mem_cons_self
      rw [hp l hall] at hl
      cases hl
  | cons k rest =>
      have hfront := List.rdropWhile_prefix p (l := l :: ls)
      rw [hkept, List.cons_prefix_cons] at hfront
      exact ⟨rest, by rw [hfront.1]⟩

section Describe

variable {p : Line → Bool} (hp : ∀ l, p l = true → l.isBlank = true)
  (hone : ∀ l ∈ run, Text.OneLine l) (hfirst : ∀ l ∈ run.head?, l.isBlank = false)

include hp hone hfirst

/-- A description starts with a line that is not blank. -/
theorem isBlank_first {t : Text} (ht : t ∈ describe p run) :
    isBlank (t.takeWhile (· ≠ '\n')) = false := by
  cases run with
  | nil => cases ht
  | cons l ls =>
      have hl := hfirst l rfl
      obtain ⟨rest, hrest⟩ := exists_rdropWhile hp hl ls
      rw [describe, if_neg (by simp), hrest] at ht
      cases ht
      rw [List.map_cons, Text.takeWhile_join (newline_not_mem_chomp (hone l List.mem_cons_self)),
        isBlank_chomp, hl]

/-- A description ends with the last line that is left. -/
theorem exists_last {t : Text} (ht : t ∈ describe p run) : ∃ front l,
    run.rdropWhile p = front ++ [l] ∧ t.rtakeWhile (· ≠ '\n') = Text.chomp l := by
  cases run with
  | nil => cases ht
  | cons k ls =>
      obtain ⟨rest, hrest⟩ := exists_rdropWhile hp (hfirst k rfl) ls
      obtain ⟨front, l, hsnoc⟩ := ((k :: ls).rdropWhile p).eq_nil_or_concat.resolve_left
        (by rw [hrest]; exact List.cons_ne_nil _ _)
      rw [List.concat_eq_append] at hsnoc
      refine ⟨front, l, hsnoc, ?_⟩
      rw [describe, if_neg (by simp), hsnoc] at ht
      cases ht
      have hl : l ∈ k :: ls := (List.rdropWhile_prefix p _).subset (hsnoc ▸ by simp)
      rw [List.map_append]
      exact Text.rtakeWhile_join (newline_not_mem_chomp (hone l hl)) _

end Describe

section Trimmed

variable (hone : ∀ l ∈ run, Text.OneLine l) (hfirst : ∀ l ∈ run.head?, l.isBlank = false)

include hone hfirst

theorem isBlank_last {t : Text} (ht : t ∈ describe isBlank run) :
    isBlank (t.rtakeWhile (· ≠ '\n')) = false := by
  obtain ⟨front, l, hsnoc, hlast⟩ := exists_last (fun _ => id) hone hfirst ht
  have hnot := List.rdropWhile_last_not isBlank run (by rw [hsnoc]; simp)
  simp only [hsnoc, List.getLast_append_singleton] at hnot
  rw [hlast, isBlank_chomp, Bool.eq_false_iff]
  exact hnot

/-- If the last line of a description is not blank, then blank lines at its end are left out. -/
theorem rdropWhile_eq_of_last
    (h : ∀ t ∈ describe isVoid run, isBlank (t.rtakeWhile (· ≠ '\n')) = false) :
    run.rdropWhile isVoid = run.rdropWhile isBlank := by
  cases hd : describe isVoid run with
  | none =>
      rw [describe] at hd
      split at hd
      · next hnil => rw [List.isEmpty_iff.mp hnil, List.rdropWhile_nil, List.rdropWhile_nil]
      · cases hd
  | some t =>
      obtain ⟨front, l, hsnoc, hlast⟩ := exists_last isBlank_of_isVoid hone hfirst hd
      have hl := h t hd
      rw [hlast, isBlank_chomp] at hl
      rw [← rdropWhile_rdropWhile isBlank_of_isVoid run, hsnoc,
        List.rdropWhile_concat_neg _ _ _ (Bool.eq_false_iff.mp hl)]

/-- Blank lines at the end of a description are left out if they are void, and only then. -/
theorem describe_eq_iff : describe isVoid run = describe isBlank run ↔
    ∀ l ∈ run.rtakeWhile isBlank, l.isVoid = true := by
  rw [← rdropWhile_eq_iff isBlank_of_isVoid]
  constructor
  · intro heq
    refine rdropWhile_eq_of_last hone hfirst fun t ht => ?_
    rw [heq] at ht
    exact isBlank_last hone hfirst ht
  · intro heq
    rw [describe, describe, heq]

/-- In the same cases, and in no others, a description does not end with a blank line. -/
theorem isBlank_last_iff :
    (∀ t ∈ describe isVoid run, isBlank (t.rtakeWhile (· ≠ '\n')) = false) ↔
      ∀ l ∈ run.rtakeWhile isBlank, l.isVoid = true := by
  rw [← describe_eq_iff hone hfirst]
  constructor
  · intro hlast
    rw [describe, describe, rdropWhile_eq_of_last hone hfirst hlast]
  · intro heq t ht
    rw [heq] at ht
    exact isBlank_last hone hfirst ht

end Trimmed

end Line

/-! ## Strides below a title -/

namespace State

variable (b : Block) {p : Phase}

theorem next_of_title (s : State) : ∀ a ∈ s.moves, a.kind = b.kind →
    s.inDocString = false ∧ a.next = .block b .titled := by
  revert s
  cases b <;> exact forall_of_all (by decide)

theorem next_of_free_text : ∀ a ∈ (State.block b p).moves,
    (a.kind = .empty → p = .titled → a.next = .block b .titled) ∧
      (a.kind = .other → a.next = .block b .described) := by
  cases b <;> cases p <;> decide

theorem mem_interrupts (hp : p ≠ .commented) : ∀ a ∈ (State.block b p).moves,
    a.kind ∉ [TokenKind.eof, .empty, .other] → a.kind ∈ b.interrupts := by
  revert hp
  cases b <;> cases p <;> decide

theorem rank_lt_other_of_interrupts : ∀ kind ∈ b.interrupts,
    (State.block b p).rank kind < (State.block b p).rank .other := by
  cases b <;> cases p <;> decide

/-- Below a title, only steps are tried before blank lines. -/
theorem rank_empty_lt : ∀ a ∈ (State.block b .titled).moves,
    a.kind ∉ [TokenKind.eof, .empty, .stepLine] →
      (State.block b .titled).rank .empty < (State.block b .titled).rank a.kind := by
  cases b <;> decide

end State

namespace Stride

/-- A stride for which the matcher is that one, outside of doc strings. Blank lines and comments are
the same to all matchers. -/
def Governed (m : Matcher) (x : Stride) : Prop :=
  ∃ m' next, x.Taken m' next ∧ (x.state.inDocString = false →
    x.move.kind ∉ [TokenKind.empty, .comment, .language] → m' = m)

variable {m : Matcher} {x : Stride} {b : Block} {p : Phase} {l : Line}

theorem Taken.line_eq_none_iff {next : Matcher} (h : x.Taken m next) :
    x.token.line = none ↔ x.move.kind = .eof := by
  obtain ⟨_, _, hask⟩ := h.ask
  rw [← Matcher.ask_yes_isEnd hask, Token.isEnd, Option.isNone_iff_eq_none]

theorem Taken.ne_eof {next : Matcher} (h : x.Taken m next) (hl : x.token.line = some l) :
    x.move.kind ≠ .eof := by
  rw [ne_eq, ← h.line_eq_none_iff, hl]
  exact Option.some_ne_none l

theorem Taken.readLine_of_line {next : Matcher} (h : x.Taken m next) (hl : x.token.line = some l) :
    ∃ reading, x.token.reading = some reading ∧ m.readLine x.move.kind l = .yes reading next := by
  obtain ⟨_, reading, hl', hreading, hread⟩ := h.readLine (h.ne_eof hl)
  cases hl.symm.trans hl'
  exact ⟨reading, hreading, hread⟩

namespace Governed

variable (h : x.Governed m) (hl : x.token.line = some l)

include h hl

theorem isBlank (hempty : x.move.kind = .empty) : l.isBlank = true := by
  obtain ⟨m', next, htaken, _⟩ := h
  obtain ⟨reading, _, hread⟩ := htaken.readLine_of_line hl
  rw [hempty, Matcher.readLine] at hread
  split at hread
  · assumption
  · cases hread

/-- A line of free text has been taken for nothing else. -/
theorem isFree (hm : m.separator = none) (hstate : x.state = .block b p)
    (hother : x.move.kind = .other) :
    b.isFree m l = true ∧ Node.textOf x.token = Text.chomp l := by
  obtain ⟨m', next, htaken, hsame⟩ := h
  obtain rfl : m' = m := hsame (by rw [hstate]; rfl) (by rw [hother]; decide)
  obtain ⟨reading, hreading, hread⟩ := htaken.readLine_of_line hl
  refine ⟨List.all_eq_true.mpr fun kind hkind => decide_eq_true ?_, ?_⟩
  · have hrank := State.rank_lt_other_of_interrupts b (p := p) kind hkind
    rw [← hstate, ← hother] at hrank
    have hno := htaken.before kind hrank
    rwa [Matcher.ask_of_line hl rfl] at hno
  · rw [hother, Matcher.readLine, Matcher.contentOf_of_outside hm] at hread
    cases hread
    rw [Node.textOf, hreading]
    rfl

/-- A line that is neither blank nor free text ends free text. -/
theorem not_isFree (hstate : x.state = .block b p) (hp : p ≠ .commented)
    (hmove : x.move ∈ x.state.moves) (hnot : x.move.kind ∉ [TokenKind.empty, .other]) :
    b.isFree m l = false := by
  obtain ⟨m', next, htaken, hsame⟩ := h
  obtain ⟨reading, _, hread⟩ := htaken.readLine_of_line hl
  have hkind : x.move.kind ∈ b.interrupts := by
    rw [hstate] at hmove
    refine State.mem_interrupts b hp _ hmove fun hmem => ?_
    exact (List.mem_cons.mp hmem).elim (htaken.ne_eof hl) hnot
  have hyes : m.readLine x.move.kind l ≠ .no := by
    by_cases hcomment : x.move.kind = .comment
    · rw [hcomment, Matcher.readLine] at hread ⊢
      split at hread
      · next hstart =>
          rw [if_pos hstart]
          exact Verdict.noConfusion
      · cases hread
    · obtain rfl : m' = m := hsame (by rw [hstate]; rfl) (by
        revert hkind hcomment
        generalize x.move.kind = kind
        cases b <;> cases kind <;> decide)
      rw [hread]
      exact Verdict.noConfusion
  exact List.all_eq_false.mpr ⟨_, hkind, by simpa using hyes⟩

/-- Below a title, a blank line is taken for one. -/
theorem isBlank_eq_false (hm : m.dialect ∈ Dialect.table) (hstate : x.state = .block b .titled)
    (hmove : x.move ∈ x.state.moves) (hempty : x.move.kind ≠ .empty) : l.isBlank = false := by
  obtain ⟨m', next, htaken, hsame⟩ := h
  obtain ⟨reading, _, hread⟩ := htaken.readLine_of_line hl
  rw [Bool.eq_false_iff]
  intro hblank
  by_cases hstep : x.move.kind = .stepLine
  · obtain rfl : m' = m := hsame (by rw [hstate]; rfl) (by rw [hstep]; decide)
    rw [hstep, Matcher.readLine_of_isBlank hm hblank (by decide) (by decide)] at hread
    cases hread
  · have hne := htaken.ne_eof hl
    have hrank : x.state.rank .empty < x.state.rank x.move.kind := by
      rw [hstate] at hmove ⊢
      exact State.rank_empty_lt b _ hmove (by simp [hne, hempty, hstep])
    have hno := htaken.before .empty hrank
    rw [Matcher.ask_of_line hl rfl, Matcher.readLine, if_pos hblank] at hno
    cases hno

end Governed

end Stride

namespace Trail

variable {b : Block} {p : Phase} {s s' : State} {x : Stride} {xs ys : List Stride}

theorem of_cons (h : Trail s (x :: xs) s') : x.state = s ∧ x.move ∈ s.moves ∧
    x.token.kind? = some x.move.kind ∧ Trail x.move.next xs s' := by
  cases h with
  | cons ha ht rest => exact ⟨rfl, ha, ht, rest⟩

theorem behind_blanks (h : Trail (.block b .titled) (xs ++ ys) s')
    (hxs : ∀ x ∈ xs, x.move.kind = .empty) : Trail (.block b .titled) ys s' := by
  induction xs with
  | nil => exact h
  | cons x xs ih =>
      obtain ⟨_, hmove, _, hrest⟩ := of_cons h
      have hnext := (State.next_of_free_text b _ hmove).1 (hxs x List.mem_cons_self) rfl
      rw [hnext] at hrest
      exact ih hrest fun y hy => hxs y (List.mem_cons_of_mem _ hy)

/-- Free text is read in states of its block. -/
theorem behind_free_text (h : Trail (.block b p) (xs ++ ys) s') (hp : p ≠ .commented)
    (hxs : ∀ x ∈ xs, x.move.kind = .other) :
    (∀ x ∈ xs, ∃ q, x.state = .block b q) ∧ ∃ q, q ≠ .commented ∧ Trail (.block b q) ys s' := by
  induction xs generalizing p with
  | nil => exact ⟨List.forall_mem_nil _, p, hp, h⟩
  | cons x xs ih =>
      obtain ⟨hstate, hmove, _, hrest⟩ := of_cons h
      have hnext := (State.next_of_free_text b _ hmove).2 (hxs x List.mem_cons_self)
      rw [hnext] at hrest
      obtain ⟨hall, hback⟩ := ih hrest Phase.noConfusion fun y hy => hxs y (List.mem_cons_of_mem _ hy)
      exact ⟨List.forall_mem_cons.mpr ⟨⟨p, hstate⟩, hall⟩, hback⟩

end Trail

/-- The lines of the source that are read. -/
def Stride.lines (xs : List Stride) : List Line := xs.filterMap fun x => x.token.line

theorem Stride.lines_append (xs ys : List Stride) : lines (xs ++ ys) = lines xs ++ lines ys :=
  List.filterMap_append

theorem Stride.map_textOf {xs : List Stride}
    (h : ∀ x ∈ xs, ∃ l, x.token.line = some l ∧ Node.textOf x.token = Text.chomp l) :
    xs.map (fun x => Node.textOf x.token) = (lines xs).map Text.chomp := by
  induction xs with
  | nil => rfl
  | cons x xs ih =>
      obtain ⟨⟨l, hl, htext⟩, hrest⟩ := List.forall_mem_cons.mp h
      have hlines : lines (x :: xs) = l :: lines xs := List.filterMap_cons_some hl
      rw [hlines, List.map_cons, List.map_cons, htext, ih hrest]

namespace Trail

variable {b : Block} {m : Matcher} {s : State} {xs bs os zs : List Stride}

/-- The first line of a trail is that of its first stride. -/
theorem exists_of_head {l : Line} (h : Trail s xs .finished) (hm : ∀ x ∈ xs, x.Governed m)
    (hl : l ∈ (Stride.lines xs).head?) :
    ∃ x ∈ xs.head?, x ∈ xs ∧ x.state = s ∧ x.move ∈ s.moves ∧ x.token.line = some l := by
  cases xs with
  | nil => cases hl
  | cons x xs =>
      obtain ⟨hstate, hmove, _, hrest⟩ := of_cons h
      refine ⟨x, rfl, List.mem_cons_self, hstate, hmove, ?_⟩
      rw [Stride.lines, List.filterMap_cons] at hl
      cases hline : x.token.line with
      | some l' =>
          rw [hline] at hl
          cases hl
          rfl
      | none =>
          -- The end of the source is the end of the trail.
          obtain ⟨_, _, htaken, _⟩ := hm x List.mem_cons_self
          have hend := (s.next_eq_finished _ hmove).mpr (htaken.line_eq_none_iff.mp hline)
          rw [hend] at hrest
          cases xs with
          | nil =>
              rw [hline] at hl
              cases hl
          | cons y ys => cases (of_cons hrest).2.1

/-- The free text below a title is what is taken for it. -/
theorem freeLines_eq (h : Trail (.block b .titled) (bs ++ (os ++ zs)) .finished)
    (hm : ∀ x ∈ bs ++ (os ++ zs), x.Governed m) (hdoc : m.separator = none)
    (hdialect : m.dialect ∈ Dialect.table) (hbs : ∀ x ∈ bs, x.move.kind = .empty)
    (hos : ∀ x ∈ os, x.move.kind = .other)
    (hzs : ∀ x ∈ zs.head?, x.move.kind ∉ [TokenKind.empty, .other]) :
    b.freeLines m (Stride.lines (bs ++ (os ++ zs))) = Stride.lines os ∧
      (∀ l ∈ (Stride.lines os).head?, l.isBlank = false) ∧
      os.map (fun x => Node.textOf x.token) = (Stride.lines os).map Text.chomp := by
  have hbody := h.behind_blanks hbs
  obtain ⟨hstates, p, hp, hback⟩ := hbody.behind_free_text Phase.noConfusion hos
  rw [List.forall_mem_append] at hm
  obtain ⟨hmb, hmbody⟩ := hm
  obtain ⟨hmo, hmz⟩ := List.forall_mem_append.mp hmbody
  have hblank : ∀ l ∈ Stride.lines bs, l.isBlank = true := by
    intro l hl
    obtain ⟨x, hx, hl⟩ := List.mem_filterMap.mp hl
    exact (hmb x hx).isBlank hl (hbs x hx)
  have hfree : ∀ l ∈ Stride.lines os, b.isFree m l = true := by
    intro l hl
    obtain ⟨x, hx, hl⟩ := List.mem_filterMap.mp hl
    obtain ⟨q, hstate⟩ := hstates x hx
    exact ((hmo x hx).isFree hl hdoc hstate (hos x hx)).1
  have hstart : ∀ l ∈ (Stride.lines os ++ Stride.lines zs).head?, l.isBlank = false := by
    intro l hl
    rw [← Stride.lines_append] at hl
    obtain ⟨x, hx, hmem, hstate, hmove, hl⟩ := hbody.exists_of_head hmbody hl
    refine (hmbody x hmem).isBlank_eq_false hl hdialect hstate (hstate ▸ hmove) fun hempty => ?_
    rw [List.head?_append, Option.mem_def, Option.or_eq_some_iff] at hx
    rcases hx with hx | ⟨_, hx⟩
    · rw [hos x (List.mem_of_mem_head? hx)] at hempty
      cases hempty
    · exact hzs x hx (hempty ▸ List.mem_cons_self)
  have hstop : ∀ l ∈ (Stride.lines zs).head?, b.isFree m l = false := by
    intro l hl
    obtain ⟨x, hx, hmem, hstate, hmove, hl⟩ := hback.exists_of_head hmz hl
    exact (hmz x hmem).not_isFree hl hstate hp (hstate ▸ hmove) (hzs x hx)
  have hdrop : (Stride.lines os ++ Stride.lines zs).dropWhile Line.isBlank =
      Stride.lines os ++ Stride.lines zs := by
    refine List.dropWhile_eq_self_iff.mpr fun hl => ?_
    rw [hstart _ (List.head?_eq_getElem? ▸ List.getElem?_eq_getElem hl)]
    exact Bool.false_ne_true
  have htake : (Stride.lines zs).takeWhile (b.isFree m) = [] := by
    refine List.takeWhile_eq_nil_iff.mpr fun hl => ?_
    rw [hstop _ (List.head?_eq_getElem? ▸ List.getElem?_eq_getElem hl)]
    exact Bool.false_ne_true
  refine ⟨?_, fun l hl => hstart l ?_, Stride.map_textOf fun x hx => ?_⟩
  · rw [Block.freeLines, Stride.lines_append, Stride.lines_append,
      List.dropWhile_append_of_pos hblank, hdrop, List.takeWhile_append_of_pos hfree, htake,
      List.append_nil]
  · rw [List.head?_append, Option.mem_def, Option.or_eq_some_iff]
    exact .inl hl
  · obtain ⟨q, hstate⟩ := hstates x hx
    cases hl : x.token.line with
    | some l => exact ⟨l, rfl, ((hmo x hx).isFree hl hdoc hstate (hos x hx)).2⟩
    | none =>
        obtain ⟨_, _, htaken, _⟩ := hmo x hx
        have heof := htaken.line_eq_none_iff.mp hl
        rw [hos x hx] at heof
        cases heof

end Trail

/-! ## Titles of a layout -/

/-- Tokens that do not start with a blank line or with free text. -/
def Token.Firm (ts : List Token) : Prop :=
  ∀ t ∈ ts.head?, t.kind? ≠ some .empty ∧ t.kind? ≠ some .other

theorem Token.Firm.append {ts us : List Token} (ht : Firm ts) (hu : Firm us) : Firm (ts ++ us) := by
  cases ts with
  | nil => exact hu
  | cons t ts => exact ht

/-- A title with blank lines and lines of free text below it, which make up the block. -/
structure Titled.HasHead (x : Titled) (title : Token) (bs os : List Token) : Prop where
  kind : title.kind? = some x.block.kind
  location : title.location = x.location
  blank : ∀ t ∈ bs, t.kind? = some .empty
  free : ∀ t ∈ os, t.kind? = some .other
  description : x.description = if os.isEmpty then none else
    some (Text.join ['\n'] ((os.map Node.textOf).rdropWhile List.isEmpty))

/-- The block stands among the tokens with all of its free text. -/
def Titled.StandsIn (ts : List Token) (x : Titled) : Prop :=
  ∃ before title bs os after, ts = before ++ title :: (bs ++ (os ++ after)) ∧
    x.HasHead title bs os ∧ Token.Firm after

namespace Titled.StandsIn

variable {x : Titled} {ts us : List Token}

theorem append_left (us : List Token) (h : x.StandsIn ts) : x.StandsIn (us ++ ts) := by
  obtain ⟨before, title, bs, os, after, rfl, hhead⟩ := h
  exact ⟨us ++ before, title, bs, os, after, (List.append_assoc _ _ _).symm, hhead⟩

theorem append_right (h : x.StandsIn ts) (hus : Token.Firm us) : x.StandsIn (ts ++ us) := by
  obtain ⟨before, title, bs, os, after, rfl, hhead, hafter⟩ := h
  exact ⟨before, title, bs, os, after ++ us, by simp, hhead, hafter.append hus⟩

end Titled.StandsIn

namespace Layout

open Token

theorem Leaf.firm {kind : TokenKind} (x : Leaf kind) (hempty : kind ≠ .empty)
    (hother : kind ≠ .other) (ts : List Token) : Firm (x.token :: ts) := by
  intro t ht
  cases ht
  rw [x.kind_eq]
  exact ⟨fun h => hempty (Option.some.inj h), fun h => hother (Option.some.inj h)⟩

/-- Parts in a row of which each is firm. -/
theorem firm_map {α : Type} {f : α → Part} (hf : ∀ x, Firm (f x).tokens) (xs : List α) :
    Firm (Part.tokensAll (xs.map f)) := by
  induction xs with
  | nil => exact fun t ht => by cases ht
  | cons x xs ih => exact (hf x).append ih

/-- Blocks in a row, none of which has free text that would run on into the next. -/
theorem standsIn_map {α : Type} {f : α → Part} {g : α → List Titled}
    (hf : ∀ x, Firm (f x).tokens) (hg : ∀ x, ∀ y ∈ g x, y.StandsIn (f x).tokens) (xs : List α) :
    ∀ y ∈ xs.flatMap g, y.StandsIn (Part.tokensAll (xs.map f)) := by
  induction xs with
  | nil => exact fun y hy => by cases hy
  | cons x xs ih =>
      intro y hy
      rw [List.flatMap_cons, List.mem_append] at hy
      rcases hy with hy | hy
      · exact (hg x y hy).append_right (firm_map hf xs)
      · exact (ih y hy).append_left (f x).tokens

theorem Head.standsIn (b : Block) (x : Head b.kind) :
    Titled.StandsIn (Part.tokensAll x.parts) ⟨b, x.title.token.location, x.value⟩ := by
  have hlines : Part.tokensAll x.description = x.lines.map Leaf.token := by
    rw [Head.description, ← tokensAll_leaves]
    cases x.lines <;> simp
  refine ⟨[], x.title.token, x.blanks.map Leaf.token, x.lines.map Leaf.token,
    Part.tokensAll (x.remarks.elim [] fun r => r.1.part :: r.2.map Gap.part), ?_,
    ⟨x.title.kind_eq, rfl, ?_, ?_, ?_⟩, ?_⟩
  · rw [Head.parts, Part.tokensAll_cons, Part.tokensAll_append, Part.tokensAll_append, hlines,
      tokensAll_leaves]
    rfl
  · simp only [List.forall_mem_map]
    exact fun y _ => y.kind_eq
  · simp only [List.forall_mem_map]
    exact fun y _ => y.kind_eq
  · rw [List.isEmpty_map, List.map_map]
    rfl
  · cases x.remarks with
    | none => exact fun t ht => by cases ht
    | some r => exact r.1.firm (by decide) (by decide) _

theorem Head.firm (b : Block) (x : Head b.kind) : Firm (Part.tokensAll x.parts) :=
  x.title.firm (by cases b <;> decide) (by cases b <;> decide) _

theorem Step.firm (x : Step) : Firm x.part.tokens := x.line.firm (by decide) (by decide) _

theorem firm_tagParts (xs : List TagLine) : Firm (Part.tokensAll (tagParts xs)) := by
  cases xs with
  | nil => exact fun t ht => by cases ht
  | cons x xs => exact x.line.firm (by decide) (by decide) _

theorem Background.standsIn (x : Background) : x.value.titled.StandsIn x.part.tokens := by
  rw [Background.part, Part.tokens_node, Part.tokensAll_append]
  exact (Head.standsIn .background x.head).append_right (firm_map Step.firm x.steps)

theorem Background.firm (x : Background) : Firm x.part.tokens := by
  rw [Background.part, Part.tokens_node, Part.tokensAll_append]
  exact (Head.firm .background x.head).append (firm_map Step.firm x.steps)

theorem firm_table (x : Option Table) :
    Firm (Part.tokensAll (x.toList.map fun t => .node .examplesTable t.parts)) :=
  firm_map (fun t => t.first.firm (by decide) (by decide) _) x.toList

theorem Examples.standsIn (x : Examples) : x.value.titled.StandsIn x.part.tokens := by
  simp only [Examples.part, Part.tokens_node, Part.tokensAll_append, Part.tokensAll_cons,
    Part.tokensAll_nil, List.append_nil]
  exact ((Head.standsIn .examples x.head).append_right (firm_table x.table)).append_left _

theorem Examples.firm (x : Examples) : Firm x.part.tokens := by
  simp only [Examples.part, Part.tokens_node, Part.tokensAll_append, Part.tokensAll_cons,
    Part.tokensAll_nil, List.append_nil]
  exact (firm_tagParts x.tags).append ((Head.firm .examples x.head).append (firm_table x.table))

theorem Scenario.standsIn (x : Scenario) : ∀ y ∈ x.value.titled, y.StandsIn x.part.tokens := by
  cases x with
  | plain tags head steps =>
      simp only [Scenario.part, Part.tokens_node, Part.tokensAll_append, Part.tokensAll_cons,
        Part.tokensAll_nil, List.append_nil]
      refine List.forall_mem_singleton.mpr (.append_left _ ?_)
      exact (Head.standsIn .scenario head).append_right (firm_map Step.firm steps)
  | outline tags head steps examples =>
      simp only [Scenario.part, Part.tokens_node, Part.tokensAll_append, Part.tokensAll_cons,
        Part.tokensAll_nil, List.append_nil]
      have hexamples := standsIn_map (g := fun x => [x.value.titled]) Examples.firm
        (fun x => List.forall_mem_singleton.mpr x.standsIn) examples
      rw [← List.map_eq_flatMap] at hexamples
      refine List.forall_mem_cons.mpr ⟨.append_left _ ?_, fun y hy => .append_left _ ?_⟩
      · exact (Head.standsIn .outline head).append_right
          ((firm_map Step.firm steps).append (firm_map Examples.firm examples))
      · rw [List.map_map] at hy
        exact (((hexamples y hy).append_left _).append_left _)

theorem Scenario.firm (x : Scenario) : Firm x.part.tokens := by
  cases x with
  | plain tags head steps =>
      simp only [Scenario.part, Part.tokens_node, Part.tokensAll_append, Part.tokensAll_cons,
        Part.tokensAll_nil, List.append_nil]
      exact (firm_tagParts tags).append
        ((Head.firm .scenario head).append (firm_map Step.firm steps))
  | outline tags head steps examples =>
      simp only [Scenario.part, Part.tokens_node, Part.tokensAll_append, Part.tokensAll_cons,
        Part.tokensAll_nil, List.append_nil]
      exact (firm_tagParts tags).append ((Head.firm .outline head).append
        ((firm_map Step.firm steps).append (firm_map Examples.firm examples)))

theorem Feature.standsIn (x : Feature) : ∀ y ∈ x.value.titled, y.StandsIn x.part.tokens := by
  have hbackground := standsIn_map (g := fun x => [x.value.titled]) Background.firm
    (fun x => List.forall_mem_singleton.mpr x.standsIn) x.background.toList
  have hscenarios := standsIn_map (g := fun x => x.value.titled) Scenario.firm Scenario.standsIn
    x.scenarios
  have hfirm := firm_map Scenario.firm x.scenarios
  have htitled : x.value.titled = ⟨.feature, x.head.title.token.location, x.head.value⟩ ::
      (x.background.toList.flatMap (fun y => [y.value.titled]) ++
        x.scenarios.flatMap fun y => y.value.titled) := by
    rw [Feature.titled, Feature.value, List.flatMap_map]
    cases x.background <;> rfl
  rw [htitled, List.forall_mem_cons, List.forall_mem_append]
  simp only [Feature.part, Part.tokens_node, Part.tokensAll_append, Part.tokensAll_cons]
  refine ⟨?_, fun y hy => ?_, fun y hy => ?_⟩
  · exact ((Head.standsIn .feature x.head).append_left _).append_right
      ((firm_map Background.firm _).append hfirm)
  · exact ((hbackground y hy).append_right hfirm).append_left _
  · exact ((hscenarios y hy).append_left _).append_left _

theorem Document.standsIn {x : Document} {y : Feature} (hy : x.feature = some y) :
    ∀ z ∈ y.value.titled, z.StandsIn x.tokens := by
  intro z hz
  rw [Document.tokens, Document.parts, hy, Part.tokensAll_append, Part.tokensAll_append]
  refine .append_left _ (.append_right ?_ (x.eof.firm (by decide) (by decide) _))
  simpa using y.standsIn z hz

end Layout

/-! ## Accepted sources -/

theorem Line.describe_of_texts {ts : List Token} {run : List Line}
    (h : ts.map Node.textOf = run.map Text.chomp) :
    (if ts.isEmpty then none
      else some (Text.join ['\n'] ((ts.map Node.textOf).rdropWhile List.isEmpty))) =
        describe isVoid run := by
  have hempty : ts.isEmpty = run.isEmpty := by
    rw [← List.isEmpty_map (f := Node.textOf), h, List.isEmpty_map]
  have hkept : (run.map Text.chomp).rdropWhile List.isEmpty =
      (run.rdropWhile isVoid).map Text.chomp := by
    rw [List.rdropWhile, ← List.map_reverse, List.dropWhile_map, ← List.map_reverse]
    rfl
  rw [describe, hempty, h, hkept]

theorem Reader.filterMap_line {ts : List Token} {n : Nat} {ls : List Line}
    (h : ts.map Token.bare = fresh n ls) : ts.filterMap Token.line = ls := by
  have hlines := fresh_line n ls
  rw [← h, List.map_map] at hlines
  have hid : ts.filterMap Token.line = (ts.map (Token.line ∘ Token.bare)).filterMap id := by
    rw [List.filterMap_map]
    rfl
  rw [hid, hlines, List.filterMap_append, List.filterMap_map]
  simp

/-- The number of a token tells which lines are behind it. -/
theorem Reader.fresh_behind {before rest : List Token} {t : Token} {n : Nat} {ls : List Line}
    (h : (before ++ t :: rest).map Token.bare = fresh n ls) {l : Line} (hl : t.line = some l) :
    t.number = n + before.length + 1 ∧ ls[before.length]? = some l ∧
      rest.filterMap Token.line = ls.drop (before.length + 1) := by
  induction ls generalizing n before with
  | nil =>
      -- The only token is the end of the source.
      have hmem : t.bare ∈ fresh n [] := h ▸ List.mem_map_of_mem (by simp)
      have hnone : t.bare.line = none := congrArg Token.line (List.mem_singleton.mp hmem)
      cases hl.symm.trans hnone
  | cons k ls ih =>
      cases before with
      | nil =>
          obtain ⟨hfirst, hrest⟩ := List.cons.inj h
          exact ⟨by simpa using congrArg Token.number hfirst,
            (congrArg Token.line hfirst).symm.trans hl, filterMap_line hrest⟩
      | cons u before =>
          obtain ⟨_, hrest⟩ := List.cons.inj h
          obtain ⟨hnumber, hlines⟩ := ih hrest
          refine ⟨?_, hlines⟩
          rw [hnumber, List.length_cons]
          push_cast
          omega

theorem Titled.mem_of_freeLines {m : Matcher} {ls : List Line} {x : Titled} {l : Line}
    (h : l ∈ x.freeLines m ls) : l ∈ ls :=
  List.mem_of_mem_drop ((List.dropWhile_sublist _).subset ((List.takeWhile_prefix _).subset h))

/-- A block of which the description is the free text below its title. -/
theorem Titled.described_of_eq {m : Matcher} {ls : List Line} {x : Titled}
    (hls : ∀ l ∈ ls, Text.OneLine l)
    (htitle : ∃ l, x.location.Names ls l ∧ (m.readLine x.block.kind l).isYes = true)
    (hfirst : ∀ l ∈ (x.freeLines m ls).head?, l.isBlank = false)
    (h : x.description = Line.describe Line.isVoid (x.freeLines m ls)) : x.Described m ls := by
  have hone : ∀ l ∈ x.freeLines m ls, Text.OneLine l := fun l hl => hls l (mem_of_freeLines hl)
  refine ⟨htitle, h, ?_, ?_, ?_⟩
  · rw [h]
    exact fun t => Line.isBlank_first Line.isBlank_of_isVoid hone hfirst
  · rw [h]
    exact Line.describe_eq_iff hone hfirst
  · rw [h]
    exact Line.isBlank_last_iff hone hfirst

theorem Titled.StandsIn.described {m : Matcher} {ls : List Line} {x : Titled} {xs : List Stride}
    (h : x.StandsIn (xs.map Stride.token))
    (hbare : (xs.map Stride.token).map Token.bare = Reader.fresh 0 ls)
    (hls : ∀ l ∈ ls, Text.OneLine l) (htrail : Trail .start xs .finished)
    (hm : ∀ y ∈ xs, y.Governed m) (hdoc : m.separator = none)
    (hdialect : m.dialect ∈ Dialect.table) : x.Described m ls := by
  obtain ⟨before, title, bs, os, after, htokens, hhead, hafter⟩ := h
  obtain ⟨front, back, rfl, hfront, hback⟩ := List.map_eq_append_iff.mp htokens
  obtain ⟨y, below, rfl, rfl, hbelow⟩ := List.map_eq_cons_iff.mp hback
  obtain ⟨bs', rest, rfl, rfl, hrest⟩ := List.map_eq_append_iff.mp hbelow
  obtain ⟨os', zs, rfl, rfl, rfl⟩ := List.map_eq_append_iff.mp hrest
  subst hfront
  obtain ⟨s, _, htrail⟩ := htrail.split
  obtain ⟨hstate, hmove, hkind, htrail⟩ := htrail.of_cons
  have htitle : y.move.kind = x.block.kind := Option.some.inj (hkind.symm.trans hhead.kind)
  obtain ⟨hout, hnext⟩ := s.next_of_title x.block y.move hmove htitle
  rw [hnext] at htrail
  have hbelow : ∀ z ∈ bs' ++ (os' ++ zs), z.Governed m := fun z hz =>
    hm z (List.mem_append_right _ (List.mem_cons_of_mem _ hz))
  have hread : ∀ z ∈ bs' ++ (os' ++ zs), ∀ kind, z.token.kind? = some kind →
      z.move.kind = kind := fun z hz kind hz' =>
    Option.some.inj ((htrail.mem z hz).2.symm.trans hz')
  obtain ⟨hfree, hfirst, htexts⟩ := htrail.freeLines_eq hbelow hdoc hdialect
    (fun z hz => hread z (by simp [hz]) _ (hhead.blank _ (List.mem_map_of_mem hz)))
    (fun z hz => hread z (by simp [hz]) _ (hhead.free _ (List.mem_map_of_mem hz)))
    (fun z hz hnot => by
      obtain ⟨hempty, hother⟩ := hafter z.token (by rw [List.head?_map, hz]; rfl)
      have hz' := (htrail.mem z (by simp [List.mem_of_mem_head? hz])).2
      simp only [List.mem_cons, List.not_mem_nil, or_false] at hnot
      exact hnot.elim (fun h => hempty (h ▸ hz')) fun h => hother (h ▸ hz'))
  obtain ⟨l, hl, hread⟩ : ∃ l, y.token.line = some l ∧
      (m.readLine x.block.kind l).isYes = true := by
    obtain ⟨_, next, htaken, hsame⟩ := hm y (by simp)
    obtain ⟨l, reading, hl, _, hread⟩ := htaken.readLine (by
      rw [htitle]
      cases x.block <;> decide)
    rw [hsame (hstate ▸ hout) (by rw [htitle]; cases x.block <;> decide), htitle] at hread
    exact ⟨l, hl, by rw [hread]; rfl⟩
  rw [List.map_append, List.map_cons] at hbare
  obtain ⟨hnumber, hnames, hdrop⟩ := Reader.fresh_behind hbare hl
  have hline : x.location.line = (front.map Stride.token).length + 1 := by
    rw [← hhead.location]
    change y.token.number = _
    omega
  have hlines : x.freeLines m ls = Stride.lines os' := by
    rw [Titled.freeLines, hline, Int.toNat_natCast_add_one, ← hdrop, List.filterMap_map]
    exact hfree
  refine Titled.described_of_eq hls ⟨l, ⟨_, hline, hnames⟩, hread⟩ (by rwa [hlines]) ?_
  rw [hlines, hhead.description]
  refine Line.describe_of_texts ?_
  rw [List.map_map]
  exact htexts

/-- Behind the language header one matcher is in force to the end, outside of doc strings. -/
theorem Taken.governed {matcher last : Matcher} {xs : List Stride}
    (h : Taken matcher.reset xs last) (htrail : Trail .start xs .finished) :
    ∀ x ∈ xs, x.Governed { matcher.reset with dialect := last.dialect } := by
  obtain ⟨_, _, hsettled⟩ := h.settled htrail rfl
  intro x hx
  by_cases hkind : x.move.kind ∈ [TokenKind.empty, .comment, .language]
  · obtain ⟨m, next, htaken⟩ := h.exists_of_mem x hx
    exact ⟨m, next, htaken, fun _ hnot => absurd hkind hnot⟩
  · obtain ⟨m, next, htaken, hdialect, hstyle, hdoc, hdefault⟩ := hsettled x hx hkind
    refine ⟨m, next, htaken, fun hout _ => ?_⟩
    rw [hout, Option.isSome_eq_false_iff, Option.isNone_iff_eq_none] at hdoc
    obtain ⟨style, default, dialect, separator, indent, outside⟩ := m
    cases outside hdoc
    subst hdialect hstyle hdoc hdefault
    rfl

namespace Parser

/-- The description of a block in the document of an accepted source is the free text below the
title of the block. Blank lines in front of it are left out, and so are void lines behind it. -/
theorem descriptions_read_back (builder : DocumentBuilder) (stopAtFirst : Bool) (matcher : Matcher)
    (hmatcher : matcher.default ∈ Dialect.table) (source : Text) (d : Document)
    (h : (parse { builder, stopAtFirst } matcher source).outcome = .ok (some d)) :
    ∀ f ∈ d.feature, ∃ dialect, Dialect.byName f.language = some dialect ∧
      ∀ x ∈ f.titled, x.Described { matcher.reset with dialect } (Text.lines source) := by
  obtain ⟨x, xs, last, htokens, _, hvalue, htrail, htaken, hstrides, _⟩ := exists_layout h
  obtain rfl : d = x.value := Option.some.inj hvalue
  intro f hf
  obtain ⟨y, hy, rfl⟩ := Option.map_eq_some_iff.mp hf
  have hdialect := htaken.dialect_mem hmatcher
  refine ⟨last.dialect, ?_, fun z hz => ?_⟩
  · rw [x.language_eq hy hstrides htrail htaken]
    exact Dialect.byName_name hdialect
  · have hstands := Layout.Document.standsIn hy z hz
    have hbare := built_bare hmatcher h
    rw [← hstrides] at hstands htokens
    rw [← htokens] at hbare
    exact hstands.described hbare (fun l hl => Text.oneLine_of_mem_lines hl) htrail
      (htaken.governed htrail) rfl hdialect

/-- A Norwegian source with a block of every sort, in which keywords of other languages and bars are
free text. -/
def describedSource : Text :=
  ("#language:no\nEgenskap: f\n\n \t\n Feature: a\n\n|b\r\n\nBakgrunn:\n Given c\n#\n* s\n" ++
    "Scenario: g\n\n* s\nScenariomal:\n d \n* s\nEksempler:\n\ne\n\n|x|\n").toList

theorem descriptions_read_back_describedSource :
    Dialect.english ∈ Dialect.table ∧
      ∃ d : Document, (parse { builder := ({} : DocumentBuilder) } (.new .plain .english)
          describedSource).outcome = .ok (some d) ∧
        d.feature.map (fun f => f.titled.map Titled.description) =
          some [some " Feature: a\n\n|b".toList, some " Given c".toList, none, some " d ".toList,
            some "e".toList] ∧
        ∀ f ∈ d.feature, ∃ dialect, Dialect.byName f.language = some dialect ∧ ∀ x ∈ f.titled,
          x.Described { (Matcher.new .plain .english).reset with dialect }
            (Text.lines describedSource) := by
  have henglish : Dialect.english ∈ Dialect.table := by decide
  have hcheck : ((parse { builder := ({} : DocumentBuilder) } (.new .plain .english)
      describedSource).outcome.toOption.join.any fun d =>
        d.feature.map (fun f => f.titled.map Titled.description) ==
          some [some " Feature: a\n\n|b".toList, some " Given c".toList, none, some " d ".toList,
            some "e".toList]) = true := by
    decide +kernel
  obtain ⟨d, hd, hfound⟩ := (Option.any_eq_true _ _).mp hcheck
  have h := eq_ok_some_of_join hd
  exact ⟨henglish, d, h, beq_iff_eq.mp hfound,
    descriptions_read_back {} false (.new .plain .english) henglish describedSource d h⟩

/-- A line of one space behind a description, which becomes a part of it. -/
theorem description_ends_blank :
    ∃ d : Document, (parse { builder := ({} : DocumentBuilder) } (.new .plain .english)
        "Feature:\na\n \n".toList).outcome = .ok (some d) ∧
      d.feature.map Feature.description = some (some "a\n ".toList) ∧
      Line.describe Line.isBlank (Block.feature.freeLines (.new .plain .english)
        ((Text.lines "Feature:\na\n \n".toList).drop 1)) = some "a".toList := by
  have hcheck : ((parse { builder := ({} : DocumentBuilder) } (.new .plain .english)
      "Feature:\na\n \n".toList).outcome.toOption.join.any fun d =>
        d.feature.map Feature.description == some (some "a\n ".toList)) = true := by
    decide +kernel
  obtain ⟨d, hd, hfound⟩ := (Option.any_eq_true _ _).mp hcheck
  exact ⟨d, eq_ok_some_of_join hd, beq_iff_eq.mp hfound, by decide +kernel⟩

end Parser

end FeatureFile
