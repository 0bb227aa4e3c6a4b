import FeatureFile.Document.Builder
import FeatureFile.Proofs.Recording

/-!
# States and open rules

A state of the parser names the rules that are open in it (`State.path`), and the document builder
keeps a node for every open rule on its stack. Nothing in the builder ties the two together: closing
a rule takes the innermost node off the stack, whichever rule was meant. They agree because every
move of every state closes and opens exactly the rules by which the paths of the two states differ
(`State.fits_of_mem_moves`), and because a call moves the stack in the same way whether the builder
refuses it or not. That second half is what makes the agreement survive errors: a table with rows of
different lengths is off the stack before it is refused.

`rules_follow_states` is the resulting invariant of a parse.
-/

namespace FeatureFile

namespace DocumentBuilder

variable {b : DocumentBuilder}

/-! ## What a call does to the stack -/

@[simp] theorem rules_opened (r : Rule) (b : DocumentBuilder) :
    (Builder.receive (.opened r) b).1.rules = b.rules ++ [r] :=
  List.reverse_cons

theorem rules_add (item : NodeItem) (b : DocumentBuilder) : (b.add item).1.rules = b.rules := by
  unfold add
  split
  · rfl
  · rename_i top below hstack
    simp only [rules, hstack, List.map_cons, Node.add]

@[simp] theorem rules_closed (r : Rule) (b : DocumentBuilder) :
    (Builder.receive (.closed r) b).1.rules = b.rules.dropLast := by
  change b.close.1.rules = b.rules.dropLast
  unfold close
  split
  · rename_i hstack
    simp only [rules, hstack, List.map_nil, List.reverse_nil, List.dropLast_nil]
  · rename_i node hstack
    simp only [rules, hstack, List.map_nil, List.map_cons, List.reverse_nil, List.reverse_cons,
      List.nil_append, List.dropLast_singleton]
  · rename_i node top below hstack
    have hbelow : b.rules.dropLast = rules { b with stack := top :: below } := by
      simp only [rules, hstack, List.map_cons, List.reverse_cons, List.dropLast_concat]
    simp only []
    split
    · exact hbelow.symm
    · exact (rules_add _ _).trans hbelow.symm

@[simp] theorem rules_read (t : Token) (b : DocumentBuilder) :
    (Builder.receive (.read t) b).1.rules = b.rules := by
  change (b.read t).1.rules = b.rules
  unfold read
  split
  · rfl
  · split
    · rfl
    · exact rules_add _ _

/-- The rule of the innermost node. -/
def innermost (b : DocumentBuilder) : Option Rule := b.stack.head?.map Node.rule

theorem innermost_eq {pre : List Rule} {r : Rule} (h : b.rules = pre ++ [r]) :
    b.innermost = some r := by
  have hrev : b.stack.map Node.rule = r :: pre.reverse := by
    rw [← List.reverse_reverse (b.stack.map Node.rule)]
    change b.rules.reverse = _
    rw [h, List.reverse_append]
    rfl
  rw [innermost, ← List.head?_map, hrev]
  rfl

/-! ## What a move does to the stack -/

theorem rules_feed_closed {pre rs : List Rule} (h : b.rules = pre ++ rs.reverse) :
    (Builder.feed (rs.map .closed) b).1.rules = pre := by
  induction rs generalizing b with
  | nil => simpa using h
  | cons r rs ih =>
      rw [List.map_cons, Builder.feed_cons_fst]
      refine ih ?_
      rw [rules_closed, h, List.reverse_cons, ← List.append_assoc, List.dropLast_concat]

/-- Closing the innermost rules in turn closes each rule as the innermost one. -/
theorem innermost_of_mem_trace {pre rs : List Rule} (h : b.rules = pre ++ rs.reverse) {r : Rule}
    {at' : DocumentBuilder} (hmem : (.closed r, at') ∈ Builder.trace (rs.map .closed) b) :
    at'.innermost = some r := by
  induction rs generalizing b with
  | nil => cases hmem
  | cons q rs ih =>
      rw [List.reverse_cons, ← List.append_assoc] at h
      rw [List.map_cons, Builder.trace] at hmem
      rcases List.mem_cons.mp hmem with heq | hmem
      · cases heq
        exact innermost_eq h
      · refine ih ?_ hmem
        rw [rules_closed, h, List.dropLast_concat]

theorem rules_feed_opened (rs : List Rule) (b : DocumentBuilder) :
    (Builder.feed (rs.map .opened) b).1.rules = b.rules ++ rs := by
  induction rs generalizing b with
  | nil => simp
  | cons r rs ih =>
      rw [List.map_cons, Builder.feed_cons_fst, ih, rules_opened, List.append_assoc]
      rfl

variable {s : State} {a : Move}

theorem rules_eq_take_append (h : b.rules = s.path) (ha : a ∈ s.moves) :
    b.rules = s.path.take (a.keep s) ++ a.closes.reverse := by
  rw [h, (s.fits_of_mem_moves a ha).1, List.reverse_reverse, List.take_append_drop]

/-- A move leads from the rules of one state to those of the next. -/
theorem rules_feed_callsOf (h : b.rules = s.path) (ha : a ∈ s.moves) (t : Token) :
    (Builder.feed (Run.callsOf a t) b).1.rules = a.next.path := by
  rw [Run.callsOf, Builder.feed_append, Builder.feed_append, Builder.feed_cons_fst,
    Builder.feed_nil, rules_read, rules_feed_opened, rules_feed_closed (rules_eq_take_append h ha)]
  exact (s.fits_of_mem_moves a ha).2

theorem innermost_of_mem_callsOf (h : b.rules = s.path) (ha : a ∈ s.moves) {t : Token} {r : Rule}
    {at' : DocumentBuilder} (hmem : (.closed r, at') ∈ Builder.trace (Run.callsOf a t) b) :
    at'.innermost = some r := by
  rw [Run.callsOf, List.append_assoc, Builder.trace_append] at hmem
  rcases List.mem_append.mp hmem with hmem | hmem
  · exact innermost_of_mem_trace (rules_eq_take_append h ha) hmem
  · have hcall := Builder.mem_of_mem_trace hmem
    simp at hcall

end DocumentBuilder

/-! ## What a parse does to the stack -/

namespace Run

variable {β ρ : Type} [Builder β ρ] {mode : Mode} {s s' : State} {run : Run β} {o : Step β}

/-- A turn that leads on keeps the rules in step with the states, also behind an error. -/
theorem Goes.rules {f : β → DocumentBuilder} (hf : Builder.Commutes f)
    (hgoes : Goes mode s run o s') (h : (f run.builder).rules = s.path) :
    (f o.run.builder).rules = s'.path := by
  cases hgoes with
  | moved a reading ha _ _ _ _ _ hbuilder =>
      have hfeed := congrArg Prod.fst (hf.feed (callsOf a o.token) run.builder)
      simp only at hfeed
      rw [hbuilder, ← hfeed]
      exact DocumentBuilder.rules_feed_callsOf h ha _
  | skipped _ _ _ _ _ hbuilder =>
      rw [hbuilder]
      exact h

theorem Goes.isEnd_of_finished (hgoes : Goes mode s run o s') (h : s' = .finished) :
    o.token.isEnd = true := by
  rw [hgoes.isEnd]
  cases hgoes with
  | moved a reading ha hask =>
      exact (Matcher.ask_yes_isEnd hask).mpr ((s.next_eq_finished a ha).mp h)
  | skipped hs => exact absurd h hs

end Run

namespace Parser

theorem rules_turns {β ρ : Type} [Builder β ρ] {f : β → DocumentBuilder}
    (hf : Builder.Commutes f) {parser : Parser β} {matcher : Matcher} {source : Text}
    (hopen : (f (parser.opening matcher source).builder).rules = State.start.path) :
    ∀ turn ∈ parser.turns matcher source, (f turn.run.builder).rules = turn.state.path :=
  Run.turns_induction (P := fun s run => (f run.builder).rules = s.path)
    (fun _ _ _ h hgoes _ => hgoes.rules hf h) _ _ _ hopen

theorem state_ne_finished {β ρ : Type} [Builder β ρ] (parser : Parser β) (matcher : Matcher)
    (source : Text) : ∀ turn ∈ parser.turns matcher source, turn.state ≠ .finished := by
  refine Run.turns_induction (P := fun s _ => s ≠ .finished) ?_ _ _ _ State.noConfusion
  intro s run s' _ hgoes hend hfinished
  rw [hgoes.isEnd_of_finished hfinished] at hend
  cases hend

/-- States and open rules stay in step. In every turn of a parse that leads on to a state, also
one that collects an error on the way, the rules on the builder's stack are those of the state
before and those of the new state after. The new state is the last one only if the end of the
input has been taken, and no turn begins there. And whatever rule a turn closes, also one that is
given up, that rule is then the innermost on the stack. -/
theorem rules_follow_states (parser : Parser DocumentBuilder) (matcher : Matcher)
    (source : Text) :
    (∀ turn ∈ parser.turns matcher source,
      turn.state ≠ .finished ∧ turn.run.builder.rules = turn.state.path ∧
        ∀ s, (turn.outcome parser.mode).next = .ok s →
          (turn.outcome parser.mode).run.builder.rules = s.path ∧
            (s = .finished → (turn.outcome parser.mode).token.isEnd = true)) ∧
      (∀ r b, (.closed r, b) ∈ (parser.recording.loop matcher source).1.builder.log →
        b.innermost = some r) ∧
      (State.ofNumber 21).map State.path =
        some [.root, .document, .feature, .scenarioDefinition, .scenarioOutline, .step,
          .dataTable] ∧
      (State.ofNumber 27).map State.path = some [.root, .document] := by
  refine ⟨?_, ?_, rfl, rfl⟩
  · intro turn hturn
    have hbefore : turn.run.builder.rules = turn.state.path :=
      rules_turns (f := id) (fun _ _ => rfl) rfl turn hturn
    refine ⟨state_ne_finished parser matcher source turn hturn, hbefore, ?_⟩
    intro s hnext
    have hgoes := Run.advance_goes hnext
    exact ⟨hgoes.rules (f := id) (fun _ _ => rfl) hbefore, hgoes.isEnd_of_finished⟩
  · intro r b hmem
    rcases Run.steps_log _ _ _ _ _ hmem with hmem | ⟨turn, hturn, a, ha, t, hmem⟩
    · -- Before the first turn the document has been opened, and nothing has been closed.
      rcases List.mem_singleton.mp hmem with ⟨⟩
    · have hrules := rules_turns Recorder.commutes rfl turn hturn
      exact DocumentBuilder.innermost_of_mem_callsOf hrules ha hmem

end Parser

end FeatureFile
