import FeatureFile.Proofs.LineOrder
import FeatureFile.Proofs.Outcomes

/-!
# State, matcher and queue in step

Three things have to agree on where a parse is. The state knows which rules are open. The matcher
knows the dialect and whether a doc string is under way, and dedents and unescapes lines if it is.
The queue holds what a look ahead has read too early. None of them is told by another: the matcher
changes as a side effect of its answers, so that an answer which no move follows would put it out of
step for good, and every later line of text would be cut.

That they agree is an invariant of the turns (`Run.InStep`). A turn asks about a separator or about a
header only where it moves on the answer, so the matcher opens a doc string when the state does, and
changes its dialect only when a header is handed to the builder. The separator and the indent that it
keeps meanwhile are those of the last separator handed over. For the queue the work has been done
already (`Run.InOrder`).
-/

namespace FeatureFile

theorem State.inDocString_iff (s : State) :
    s.inDocString = true ↔ s.number = 28 ∨ s.number = 30 ∨ s.number = 32 := by
  revert s
  exact State.forall_of_all (by decide)

theorem State.collectsTags_iff (s : State) :
    s.collectsTags = true ↔ s.number = 11 ∨ s.number = 22 := by
  revert s
  exact State.forall_of_all (by decide)

/-- Inside a doc string, a line is text or it ends the doc string. -/
theorem State.kind_of_inDocString (s : State) : s.inDocString = true →
    ∀ a ∈ s.moves, a.kind = .docStringSeparator ∨ a.kind = .other := by
  revert s
  exact State.forall_of_all (by decide)

/-! ## The separator that is remembered -/

/-- A separator that opens a doc string is remembered as it stands on its line. -/
theorem Matcher.ask_opens {m next : Matcher} {hidden : List TokenKind} {t : Token}
    {reading : Reading} {d : OpenDocString} (hm : m.separator = none)
    (h : m.ask hidden .docStringSeparator t = .yes reading next)
    (hd : next.docString = some d) :
    ∃ l, t.line = some l ∧ l.startsWith d.fence.text = true ∧ d.indent = l.indent := by
  rcases ask_cases m hidden .docStringSeparator t with hno | ⟨_, hk, _⟩ | ⟨l, hl, hline⟩
  · rw [hno] at h
    cases h
  · cases hk
  · refine ⟨l, hl, ?_⟩
    rw [hline, readLine, readSeparator, hm] at h
    simp only [] at h
    split at h
    · cases h
    · rename_i fence hfence
      cases h
      cases hd
      exact ⟨fenceOf_eq_some hfence, rfl⟩

/-- Has the token been read as a separator? -/
def Token.isSeparator (t : Token) : Bool := t.kind? == some .docStringSeparator

/-- The tokens end inside a doc string, and this is what there is to remember of it: the last
separator opens it, since those before it make pairs, and only text has come since. -/
def OpenDocString.Opened (d : OpenDocString) (ts : List Token) : Prop :=
  ∃ before opener lines l, ts = before ++ opener :: lines ∧
    Even (before.countP Token.isSeparator) ∧ opener.kind? = some .docStringSeparator ∧
    (∀ t ∈ lines, t.kind? = some .other) ∧
    opener.line = some l ∧ l.startsWith d.fence.text = true ∧ d.indent = l.indent

theorem OpenDocString.Opened.countP {d : OpenDocString} {ts : List Token} (h : d.Opened ts) :
    Odd (ts.countP Token.isSeparator) := by
  obtain ⟨before, opener, lines, _, rfl, heven, hopener, hlines, _⟩ := h
  have hnone : lines.countP Token.isSeparator = 0 := by
    rw [List.countP_eq_zero]
    intro t ht
    simp [Token.isSeparator, hlines t ht]
  rw [List.countP_append, List.countP_cons, hnone]
  simp [Token.isSeparator, hopener, heven.add_one]

theorem OpenDocString.Opened.append {d : OpenDocString} {ts : List Token} {t : Token}
    (h : d.Opened ts) (ht : t.kind? = some .other) : d.Opened (ts ++ [t]) := by
  obtain ⟨before, opener, lines, l, rfl, heven, hopener, hlines, hline⟩ := h
  refine ⟨before, opener, lines ++ [t], l, by simp, heven, hopener, ?_, hline⟩
  intro u hu
  rcases List.mem_append.mp hu with hu | hu
  · exact hlines u hu
  · rw [List.mem_singleton.mp hu, ht]

namespace Run

variable {β ρ : Type} [Builder β ρ] {mode : Mode} {s s' : State} {run : Run (Recorder β)}
  {o : Step (Recorder β)} {base : Dialect}

/-- State, matcher and queue agree with each other and with the tokens handed to the builder, in a
run that starts in the dialect `base`. -/
structure InStep (base : Dialect) (s : State) (run : Run (Recorder β)) : Prop where
  order : InOrder s run
  default : run.matcher.default = base
  inside : run.matcher.separator.isSome = s.inDocString
  opened : ∀ d, run.matcher.docString = some d → d.Opened run.builder.tokens
  closed : run.matcher.separator = none → Even (run.builder.tokens.countP Token.isSeparator)
  dialect : run.matcher.dialect ≠ base → ∃ t ∈ run.builder.tokens, t.kind? = some .language

/-- What a turn hands to the builder. -/
theorem Goes.tokens (h : Goes mode s run o s') :
    (s' = s ∧ o.run.matcher = run.matcher ∧ o.run.builder.tokens = run.builder.tokens) ∨
      ∃ a ∈ s.moves, ∃ reading, a.next = s' ∧
        run.matcher.ask mode.hidden a.kind run.reader.next.1 = .yes reading o.run.matcher ∧
        o.token.kind? = some a.kind ∧ o.token.line = run.reader.next.1.line ∧
        o.run.builder.tokens = run.builder.tokens ++ [o.token] := by
  cases h with
  | skipped _ _ hmatcher _ _ hbuilder => exact .inl ⟨rfl, hmatcher, by rw [hbuilder]⟩
  | moved a reading ha hask htoken _ _ _ hbuilder =>
      refine .inr ⟨a, ha, reading, rfl, hask, ?_, by rw [htoken, Token.withReading_line], ?_⟩
      · rw [htoken, Token.kind?, Token.withReading_reading]
        exact congrArg some (Matcher.ask_yes hask).1
      · rw [hbuilder, Recorder.tokens_feed]

theorem InStep.goes (h : InStep base s run) (hmode : mode.hidden = [])
    (hgoes : Goes mode s run o s') : InStep base s' o.run := by
  have horder := h.order.goes hmode hgoes
  have hinside := hgoes.inDocString h.inside
  rcases hgoes.tokens with ⟨rfl, hmatcher, htokens⟩ |
    ⟨a, ha, reading, rfl, hask, hkind, hline, htokens⟩
  · refine ⟨horder, ?_, hinside, ?_, ?_, ?_⟩ <;> rw [hmatcher]
    · exact h.default
    · rw [htokens]
      exact h.opened
    · rw [htokens]
      exact h.closed
    · rw [htokens]
      exact h.dialect
  · have hfollows := (Matcher.ask_yes hask).2
    refine ⟨horder, hfollows.default_eq.trans h.default, hinside, ?_, ?_, ?_⟩ <;> rw [htokens]
    · -- A doc string is under way: it is opened by this token, or this token is its text.
      intro d hd
      by_cases hsep : a.kind = .docStringSeparator
      · rw [hsep] at hask hfollows hkind
        have hnone : run.matcher.separator = none := by
          have hflip := hfollows.separator_isSome
          rw [(Matcher.docString_eq_some.mp hd).1] at hflip
          simpa using hflip
        obtain ⟨l, hl, hstarts, hindent⟩ := Matcher.ask_opens hnone hask hd
        exact ⟨run.builder.tokens, o.token, [], l, rfl, h.closed hnone, hkind, by simp,
          hline.trans hl, hstarts, hindent⟩
      · rw [hfollows.docString_eq hsep] at hd
        have hs : s.inDocString = true := by
          rw [← h.inside, (Matcher.docString_eq_some.mp hd).1]
          rfl
        rcases s.kind_of_inDocString hs a ha with hk | hk
        · exact absurd hk hsep
        · rw [hk] at hkind
          exact (h.opened d hd).append hkind
    · -- No doc string is under way: this token has closed one, or is no separator.
      intro hnone
      rw [List.countP_append, List.countP_singleton, Token.isSeparator, hkind]
      by_cases hsep : a.kind = .docStringSeparator
      · rw [hsep] at hfollows ⊢
        have hsome := hfollows.separator_isSome
        rw [hnone] at hsome
        obtain ⟨fence, hfence⟩ := Option.isSome_iff_exists.mp (by simpa using hsome)
        exact (h.opened ⟨fence, _⟩ (Matcher.docString_eq_some.mpr ⟨hfence, rfl⟩)).countP.add_one
      · rw [hfollows.separator_eq hsep] at hnone
        simpa [hsep] using h.closed hnone
    · intro hne
      by_cases hlanguage : a.kind = .language
      · rw [hlanguage] at hkind
        exact ⟨o.token, by simp, hkind⟩
      · rw [hfollows.dialect_eq hlanguage] at hne
        obtain ⟨t, ht, hk⟩ := h.dialect hne
        exact ⟨t, List.mem_append_left _ ht, hk⟩

/-- Behind the start no turn changes the dialect, and none leads back. -/
theorem Goes.dialect (h : Goes mode s run o s') (hs : s ≠ .start) :
    o.run.matcher.dialect = run.matcher.dialect ∧ s' ≠ .start := by
  rcases h.tokens with ⟨rfl, hmatcher, _⟩ | ⟨a, ha, reading, rfl, hask, _⟩
  · exact ⟨by rw [hmatcher], hs⟩
  · exact ⟨(Matcher.ask_yes hask).2.dialect_eq (s.not_language hs a ha),
      fun hnext => hs (s.next_ne_start a ha hnext).1⟩

/-! ## Boundaries -/

/-- What there is between two tokens of a run. -/
structure Boundary where
  state : State
  matcher : Matcher
  reader : Reader
  /-- The tokens handed to the builder so far. -/
  built : List Token

/-- A run that has come to a state. -/
def boundary (s : State) (run : Run (Recorder β)) : Boundary where
  state := s
  matcher := run.matcher
  reader := run.reader
  built := run.builder.tokens

/-- What is behind a turn, if it leads on. -/
def Turn.boundary? (mode : Mode) (turn : Turn (Recorder β)) : Option Boundary :=
  match (turn.outcome mode).next with
  | .ok s => some ((turn.outcome mode).run.boundary s)
  | .error _ => none

/-- The boundaries behind the turns of a run. -/
def boundaries (mode : Mode) (fuel : Nat) (s : State) (run : Run (Recorder β)) : List Boundary :=
  (run.turns mode fuel s).filterMap (Turn.boundary? mode)

theorem boundaries_error {halt : Halt} (fuel : Nat)
    (h : (run.advance mode s).next = .error halt) : run.boundaries mode (fuel + 1) s = [] := by
  rw [boundaries, turns, h]
  simp [Turn.boundary?, Turn.outcome, h]

theorem boundaries_ok (fuel : Nat) (h : (run.advance mode s).next = .ok s') :
    run.boundaries mode (fuel + 1) s = (run.advance mode s).run.boundary s' ::
      if (run.advance mode s).token.isEnd then []
      else (run.advance mode s).run.boundaries mode fuel s' := by
  rw [boundaries, turns, h]
  simp only [List.filterMap_cons, Turn.boundary?, Turn.outcome, h]
  split <;> rfl

/-- What every turn that leads on brings about holds at all boundaries. -/
theorem boundaries_induction {P : State → Run (Recorder β) → Prop}
    (hstep : ∀ s run s', P s run → Goes mode s run (run.advance mode s) s' →
      P s' (run.advance mode s).run)
    (fuel : Nat) (s : State) (run : Run (Recorder β)) (h0 : P s run) :
    ∀ b ∈ run.boundaries mode fuel s, ∃ s' run', P s' run' ∧ b = run'.boundary s' := by
  induction fuel generalizing s run with
  | zero =>
      intro b hb
      cases hb
  | succ fuel ih =>
      intro b hb
      cases hnext : (run.advance mode s).next with
      | error halt =>
          rw [boundaries_error fuel hnext] at hb
          cases hb
      | ok s' =>
          have hkept := hstep s run s' h0 (advance_goes hnext)
          rw [boundaries_ok fuel hnext] at hb
          rcases List.mem_cons.mp hb with rfl | hb
          · exact ⟨s', _, hkept, rfl⟩
          · split at hb
            · cases hb
            · exact ih s' _ hkept b hb

theorem boundaries_dialect (fuel : Nat) (hs : s ≠ .start) :
    ∀ b ∈ run.boundaries mode fuel s, b.matcher.dialect = run.matcher.dialect := by
  intro b hb
  obtain ⟨s', run', ⟨_, h⟩, rfl⟩ := boundaries_induction
    (P := fun s' run' => s' ≠ .start ∧ run'.matcher.dialect = run.matcher.dialect)
    (fun s run s' h hgoes => ⟨(hgoes.dialect h.1).2, (hgoes.dialect h.1).1.trans h.2⟩)
    fuel s run ⟨hs, rfl⟩ b hb
  exact h

/-- Once the start has been left, the dialect stays. -/
theorem boundaries_pairwise (fuel : Nat) (s : State) (run : Run (Recorder β)) :
    (run.boundaries mode fuel s).Pairwise fun b b' =>
      b.state ≠ .start → b'.matcher.dialect = b.matcher.dialect := by
  induction fuel generalizing s run with
  | zero => exact .nil
  | succ fuel ih =>
      cases hnext : (run.advance mode s).next with
      | error halt =>
          rw [boundaries_error fuel hnext]
          exact .nil
      | ok s' =>
          rw [boundaries_ok fuel hnext]
          split
          · exact List.pairwise_singleton _ _
          · exact .cons (fun b hb hs => boundaries_dialect fuel hs b hb) (ih s' _)

/-- At a boundary, state, matcher and queue are in step. The matcher keeps a separator exactly in
the states inside doc strings, and it is the one that the line which opens the doc string starts
with, together with the indent of that line. In all other states lines are left as they are. -/
structure Boundary.Agrees (base : Dialect) (b : Boundary) : Prop where
  inside : b.matcher.separator.isSome = true ↔
    b.state.number = 28 ∨ b.state.number = 30 ∨ b.state.number = 32
  opened : ∀ d, b.matcher.docString = some d →
    d.Opened b.built ∧ b.matcher.indentToRemove = d.indent
  outside : ¬ (b.state.number = 28 ∨ b.state.number = 30 ∨ b.state.number = 32) →
    b.matcher.indentToRemove = 0 ∧ ∀ l, b.matcher.contentOf l = l
  dialect : b.matcher.dialect ≠ base → ∃ t ∈ b.built, t.kind? = some .language
  queue : b.reader.queue ≠ [] → b.state.number = 11 ∨ b.state.number = 22

theorem InStep.agrees (h : InStep base s run) : (run.boundary s).Agrees base where
  inside := (Bool.eq_iff_iff.mp h.inside).trans s.inDocString_iff
  opened d hd := ⟨h.opened d hd, (Matcher.docString_eq_some.mp hd).2⟩
  outside hs := by
    have hnone : run.matcher.separator = none := by
      have hinside := h.inside
      rw [Bool.eq_false_iff.mpr (mt s.inDocString_iff.mp hs)] at hinside
      simpa using hinside
    exact ⟨run.matcher.outside hnone, Matcher.contentOf_of_outside hnone⟩
  dialect := h.dialect
  queue hne := by
    rcases h.order.queue with hq | ⟨htags, _⟩
    · exact absurd hq hne
    · exact s.collectsTags_iff.mp htags

end Run

namespace Parser

variable {β ρ : Type} [Builder β ρ]

/-- What there is behind each token that a parse has dealt with. -/
def boundaries (parser : Parser β) (matcher : Matcher) (source : Text) : List Run.Boundary :=
  (parser.recording.opening matcher source).boundaries parser.mode
    ((Text.lines source).length + 1) .start

/-- State, matcher and queue stay in step, whatever the source, the builder and the matcher; and
from the first state on that is not the start, the dialect does not change any more. -/
theorem boundaries_agree (parser : Parser β) (matcher : Matcher)
    (hmatcher : matcher.default ∈ Dialect.table) (source : Text) :
    (∀ b ∈ parser.boundaries matcher source, b.Agrees matcher.default) ∧
      (parser.boundaries matcher source).Pairwise fun b b' =>
        b.state ≠ .start → b'.matcher.dialect = b.matcher.dialect := by
  refine ⟨fun b hb => ?_, Run.boundaries_pairwise _ _ _⟩
  obtain ⟨s, run, h, rfl⟩ := Run.boundaries_induction
    (P := fun s run => Run.InStep matcher.default s run)
    (fun s run s' h hgoes => h.goes rfl hgoes) _ .start (parser.recording.opening matcher source)
    { order := ⟨hmatcher, .inl rfl⟩
      default := rfl
      inside := rfl
      opened := by
        intro d hd
        cases hd
      closed := fun _ => ⟨0, rfl⟩
      dialect := fun hne => absurd rfl hne } b hb
  exact h.agrees

/-- A doc string in another language, and tags of a scenario behind an outline. -/
def strictSource : Text :=
  ("#language:no\nEgenskap: f\nScenariomal:\n* s\n  ```\n x\n```\n@a\n\n#c\n" ++
    "Scenario:\n").toList

theorem boundaries_agree_strictSource :
    Dialect.english ∈ Dialect.table ∧
      ((boundaries { builder := ({} : DocumentBuilder) } (.new .plain .english)
        strictSource).map fun b =>
          (b.state.number, b.matcher.indentToRemove, b.reader.queue.length)) =
        [(1, 0, 0), (3, 0, 0), (17, 0, 0), (20, 0, 0), (28, 2, 0), (28, 2, 0), (29, 0, 0),
          (11, 0, 3), (11, 0, 2), (11, 0, 1), (12, 0, 0), (27, 0, 0)] ∧
      (∀ b ∈ boundaries { builder := ({} : DocumentBuilder) } (.new .plain .english)
        strictSource, b.Agrees Dialect.english) ∧
      (boundaries { builder := ({} : DocumentBuilder) } (.new .plain .english)
        strictSource).Pairwise fun b b' =>
          b.state ≠ .start → b'.matcher.dialect = b.matcher.dialect := by
  have henglish : Dialect.english ∈ Dialect.table := by decide
  exact ⟨henglish, by decide +kernel,
    boundaries_agree { builder := ({} : DocumentBuilder) } (.new .plain .english) henglish
      strictSource⟩

end Parser

end FeatureFile
