import FeatureFile.Listing
import FeatureFile.Proofs.Nodes
import FeatureFile.Proofs.Recording

/-!
# Every line once and in order

A parse that comes to the end of its input has taken every line of the source exactly once, in
order, and has done one of two things with it: it has handed it to the builder, or it has left it
out with an error. What makes this more than a fact about a loop is the look ahead. The tokens
looked at go to the end of the queue, and lines would change places if the queue were not empty
then.

It always is, and the reason lies in the states. After a look ahead the parser is among tags, of a
scenario or of an examples block. The tokens it has looked past are tags, comments and blank
lines, and none of them leads out of there; and from there it does not look ahead. So the queue is
used up, but for its last token, before the state changes (`Run.InOrder`). The argument needs one
fact about keywords: a comment among the tags of a scenario must not be taken for the title of the
scenario. No keyword of a supported language starts with a hash mark, which is checked for all of
them.
-/

namespace FeatureFile

/-! ## Keywords and hash marks -/

namespace Dialect

/-- Keywords none of which starts with a hash mark. -/
def Unmarked (keywords : List Text) : Prop := ∀ k ∈ keywords, k.head? ≠ some '#'

theorem unmarked_nil : Unmarked (words []) := by
  intro k hk
  cases hk

theorem unmarked_cons {word : String} {cs : Text} {rest : List String} (h : word = String.ofList cs)
    (hcs : cs.head? ≠ some '#') (hrest : Unmarked (words rest)) :
    Unmarked (words (word :: rest)) := by
  intro k hk
  rcases List.mem_cons.mp hk with rfl | hk
  · rw [h, String.toList_ofList]
    exact hcs
  · exact hrest k hk

/-- No title of a scenario starts with a hash mark, in any language. -/
theorem unmarked_of_mem : ∀ d ∈ table, Unmarked d.scenarios ∧ Unmarked d.outlines := by
  unfold table
  repeat
    refine List.forall_mem_cons.mpr ⟨⟨?_, ?_⟩, ?_⟩
    · repeat refine unmarked_cons rfl (by decide) ?_
      exact unmarked_nil
    · repeat refine unmarked_cons rfl (by decide) ?_
      exact unmarked_nil
  exact List.forall_mem_nil _

end Dialect

theorem Line.not_startsWithTitle {l : Line} {k : Text} (hk : k.head? ≠ some '#')
    (h : l.isBlank = true ∨ l.startsWith "#".toList = true) : l.startsWithTitle k = false := by
  cases htitle : l.startsWithTitle k with
  | false => rfl
  | true =>
      exfalso
      have hprefix := List.isPrefixOf_iff_prefix.mp htitle
      rcases h with h | h
      · rw [List.isEmpty_iff.mp h] at hprefix
        have hnil := List.prefix_nil.mp hprefix
        exact absurd (List.append_eq_nil_iff.mp hnil).2 (List.cons_ne_nil _ _)
      · obtain ⟨rest, hrest⟩ := List.isPrefixOf_iff_prefix.mp h
        obtain ⟨tail, htail⟩ := hprefix
        rw [← hrest] at htail
        cases k with
        | nil =>
            have hc := (List.cons.inj htail).1
            revert hc
            decide
        | cons c k =>
            have hc : c = '#' := (List.cons.inj htail).1
            rw [hc] at hk
            exact hk rfl

namespace Matcher

variable {m : Matcher} {t : Token}

theorem readTitle_eq_none {kind : TokenKind} {keywords : List Text} {l : Line}
    (hkeywords : Dialect.Unmarked keywords)
    (h : l.isBlank = true ∨ l.startsWith "#".toList = true) :
    m.readTitle kind keywords l = none := by
  rw [readTitle, Option.map_eq_none_iff, List.find?_eq_none]
  intro k hk
  rw [Line.not_startsWithTitle (hkeywords k hk) h]
  exact Bool.false_ne_true

theorem exists_line_of_ask {kind : TokenKind} (hkind : kind ≠ .eof)
    (h : (m.ask [] kind t).isYes = true) :
    ∃ l, t.line = some l ∧ (m.readLine kind l).isYes = true := by
  rcases ask_cases m [] kind t with hno | ⟨_, heof, _⟩ | ⟨l, hl, hline⟩
  · rw [hno] at h
    cases h
  · exact absurd heof hkind
  · rw [hline] at h
    exact ⟨l, hl, h⟩

theorem blank_or_comment_of_ask
    (h : (m.ask [] .empty t).isYes = true ∨ (m.ask [] .comment t).isYes = true) :
    ∃ l, t.line = some l ∧ (l.isBlank = true ∨ l.startsWith "#".toList = true) := by
  rcases h with h | h
  · obtain ⟨l, hl, hread⟩ := exists_line_of_ask (by decide) h
    refine ⟨l, hl, .inl ?_⟩
    rw [readLine] at hread
    split at hread
    · assumption
    · cases hread
  · obtain ⟨l, hl, hread⟩ := exists_line_of_ask (by decide) h
    refine ⟨l, hl, .inr ?_⟩
    rw [readLine] at hread
    split at hread
    · assumption
    · cases hread

theorem ask_scenario_title {kind : TokenKind} (hm : m.dialect ∈ Dialect.table)
    (hkind : kind = .scenarioLine ∨ kind = .scenarioOutlineLine)
    (h : (m.ask [] .empty t).isYes = true ∨ (m.ask [] .comment t).isYes = true) :
    (m.ask [] kind t).isYes = false := by
  obtain ⟨l, hl, hline⟩ := blank_or_comment_of_ask h
  obtain ⟨hscenarios, houtlines⟩ := Dialect.unmarked_of_mem m.dialect hm
  rcases hkind with rfl | rfl
  · rw [ask_of_line hl rfl, readLine, readTitle_eq_none hscenarios hline]
    rfl
  · rw [ask_of_line hl rfl, readLine, readTitle_eq_none houtlines hline]
    rfl

/-- What one looks for is a title of examples. -/
theorem lookForExamples_found (h : (m.lookForExamples [] t).1 = .found) :
    (m.ask [] .examplesLine t).isYes = true := by
  rw [lookForExamples_fst] at h
  split at h
  · assumption
  · split at h <;> cases h

/-- A token that one looks past is no title of examples, but a blank line, a comment or tags. -/
theorem lookForExamples_passed (h : (m.lookForExamples [] t).1 = .passed) :
    (m.ask [] .examplesLine t).isYes = false ∧
      ((m.ask [] .empty t).isYes = true ∨ (m.ask [] .comment t).isYes = true ∨
        (m.ask [] .tagLine t).isYes = true) := by
  rw [lookForExamples_fst] at h
  split at h
  · cases h
  · rename_i hexamples
    split at h
    · rename_i hother
      refine ⟨by simpa using hexamples, ?_⟩
      simpa [or_assoc] using hother
    · cases h

end Matcher

/-! ## Lines that are not expected -/

theorem State.accepts_gaps (s : State) : s ≠ .finished →
    (∃ a ∈ s.moves, a.kind = .other) ∨
      ((∃ a ∈ s.moves, a.kind = .empty) ∧ ∃ a ∈ s.moves, a.kind = .comment) := by
  revert s
  exact State.forall_of_all (by decide)

/-- A line that a state does not expect is not blank and no comment. -/
theorem State.text_of_unexpected {s : State} {m : Matcher} {t : Token} {l : Line}
    (hs : s ≠ .finished) (hl : t.line = some l)
    (hno : ∀ a ∈ s.moves, (m.ask [] a.kind t).isYes = false) :
    l.isBlank = false ∧ l.startsWith "#".toList = false := by
  have hread : ∀ kind, (∃ a ∈ s.moves, a.kind = kind) → (m.readLine kind l).isYes = false := by
    rintro kind ⟨a, ha, rfl⟩
    have hask : m.ask [] a.kind t = m.readLine a.kind l := Matcher.ask_of_line hl rfl
    rw [← hask]
    exact hno a ha
  rcases s.accepts_gaps hs with hother | ⟨hempty, hcomment⟩
  · cases hread _ hother
  · have hblank := hread _ hempty
    have hhash := hread _ hcomment
    rw [Matcher.readLine.eq_def] at hblank hhash
    constructor
    · by_contra hcontra
      rw [Bool.not_eq_false] at hcontra
      rw [if_pos hcontra] at hblank
      cases hblank
    · by_contra hcontra
      rw [Bool.not_eq_false] at hcontra
      rw [if_pos hcontra] at hhash
      cases hhash

/-! ## The queue -/

/-- Is the state among the tags that a look ahead leads to? -/
def State.collectsTags : State → Bool
  | .scenarioTags | .examplesTags => true
  | _ => false

theorem State.collectsTags_of_looksAhead (s : State) :
    s.looksAhead = true → s.collectsTags = false := by
  revert s
  exact State.forall_of_all (by decide)

theorem State.collectsTags_next (s : State) : s.looksAhead = true →
    ∀ a ∈ s.moves, a.kind = .tagLine → a.next.collectsTags = true := by
  revert s
  exact State.forall_of_all (by decide)

/-- Only titles lead on from tags, and the title of a scenario is tried behind tags. -/
theorem State.next_of_collectsTags (s : State) : s.collectsTags = true → ∀ a ∈ s.moves,
    (a.next = s ∧ a.kind ≠ .language ∧ a.kind ≠ .docStringSeparator) ∨ a.kind = .examplesLine ∨
      ((a.kind = .scenarioLine ∨ a.kind = .scenarioOutlineLine) ∧
        s.rank .tagLine < s.rank a.kind) := by
  revert s
  exact State.forall_of_all (by decide)

theorem Reader.queue_next {r : Reader} (h : r.queue = []) : r.next.2.queue = [] := by
  obtain ⟨queue, unread, count⟩ := r
  cases h
  cases unread with
  | nil => rfl
  | cons l ls => rfl

namespace Run

variable {β ρ : Type} [Builder β ρ] {mode : Mode} {s s' : State} {run : Run β} {o : Step β}

/-- The queue holds nothing but what a look ahead has put there, and the tokens that were looked
past keep the state as it is. -/
structure InOrder (s : State) (run : Run β) : Prop where
  dialect : run.matcher.dialect ∈ Dialect.table
  queue : run.reader.queue = [] ∨ (s.collectsTags = true ∧
    ∃ passed last, run.reader.queue = passed ++ [last] ∧
      ∀ t ∈ passed, (run.matcher.lookForExamples [] t).1 = .passed)

theorem InOrder.queue_of_looksAhead (h : InOrder s run) (hlook : s.looksAhead = true) :
    run.reader.next.2.queue = [] := by
  rcases h.queue with hq | ⟨htags, _⟩
  · exact Reader.queue_next hq
  · rw [s.collectsTags_of_looksAhead hlook] at htags
    cases htags

/-- What becomes of the reader: a token is taken, and there may be a look ahead with an empty
queue. -/
theorem InOrder.reader (h : InOrder s run) (hgoes : Goes mode s run o s') :
    o.run.reader = run.reader.next.2 ∨
      (s'.collectsTags = true ∧ o.run.matcher = run.matcher ∧ o.token.isEnd = false ∧
        run.reader.next.2.queue = [] ∧ o.run.reader =
          (run.reader.next.2.lookAhead (run.matcher.lookForExamples mode.hidden)).2) := by
  have hend := hgoes.isEnd
  cases hgoes with
  | moved a reading ha hask htoken hfirst hreader =>
      split at hreader
      · rename_i hlook
        obtain ⟨hkind, hlook⟩ := hlook
        refine .inr ⟨s.collectsTags_next hlook a ha hkind, ?_, ?_, ?_, hreader⟩
        · refine (Matcher.ask_yes hask).2.eq ?_ ?_ <;> rw [hkind] <;> exact TokenKind.noConfusion
        · rw [hend, Bool.eq_false_iff, ne_eq, Matcher.ask_yes_isEnd hask, hkind]
          exact TokenKind.noConfusion
        · exact h.queue_of_looksAhead hlook
      · exact .inl hreader
  | skipped _ _ _ hreader => exact .inl hreader

/-- A turn takes the next token, and what comes behind it stays what it was. -/
theorem InOrder.upcoming (h : InOrder s run) (hgoes : Goes mode s run o s') :
    run.reader.upcoming =
      o.token.bare :: if o.token.isEnd then [] else o.run.reader.upcoming := by
  have hsame : o.run.reader.upcoming = run.reader.next.2.upcoming := by
    rcases h.reader hgoes with hreader | ⟨_, _, _, hqueue, hreader⟩
    · rw [hreader]
    · rw [hreader, Reader.upcoming_lookAhead Matcher.lookForExamples_bare hqueue]
  rw [Reader.upcoming_eq, hgoes.bare, hgoes.isEnd, hsame]

theorem InOrder.total (h : InOrder s run) (hgoes : Goes mode s run o s')
    (hend : o.token.isEnd = false) : o.run.reader.total = run.reader.total := by
  rw [hgoes.isEnd] at hend
  rw [← Reader.total_next _ hend]
  rcases h.reader hgoes with hreader | ⟨_, _, _, hqueue, hreader⟩
  · rw [hreader]
  · rw [hreader, Reader.total_lookAhead Matcher.lookForExamples_bare hqueue]

theorem InOrder.count (h : InOrder s run) (hgoes : Goes mode s run o s')
    (hend : o.token.isEnd = true) : o.run.reader.count = run.reader.total := by
  rcases h.reader hgoes with hreader | ⟨_, _, hline, _⟩
  · rw [hreader]
    rw [hgoes.isEnd] at hend
    exact Reader.count_next _ hend
  · rw [hend] at hline
    cases hline

/-- A token that was looked past does not lead on from tags. -/
theorem Goes.stays (hgoes : Goes mode s run o s') (hmode : mode.hidden = [])
    (hdialect : run.matcher.dialect ∈ Dialect.table) (htags : s.collectsTags = true)
    (hpassed : (run.matcher.lookForExamples [] run.reader.next.1).1 = .passed) :
    s' = s ∧ o.run.matcher = run.matcher := by
  obtain ⟨hexamples, hother⟩ := Matcher.lookForExamples_passed hpassed
  cases hgoes with
  | skipped _ _ hmatcher => exact ⟨rfl, hmatcher⟩
  | moved a reading ha hask htoken hfirst =>
      rw [hmode] at hask hfirst
      have hyes : (run.matcher.ask [] a.kind run.reader.next.1).isYes = true := by
        rw [hask]
        rfl
      rcases s.next_of_collectsTags htags a ha with ⟨hnext, hl, hs⟩ | hkind | ⟨hkind, hrank⟩
      · exact ⟨hnext, (Matcher.ask_yes hask).2.eq hl hs⟩
      · rw [hkind, hexamples] at hyes
        cases hyes
      · have hnotag := hfirst .tagLine hrank
        have hblank : (run.matcher.ask [] .empty run.reader.next.1).isYes = true ∨
            (run.matcher.ask [] .comment run.reader.next.1).isYes = true := by
          rcases hother with h | h | h
          · exact .inl h
          · exact .inr h
          · rw [hnotag] at h
            cases h
        rw [Matcher.ask_scenario_title hdialect hkind hblank] at hyes
        cases hyes

theorem InOrder.goes (h : InOrder s run) (hmode : mode.hidden = [])
    (hgoes : Goes mode s run o s') : InOrder s' o.run := by
  refine ⟨hgoes.dialect_mem h.dialect, ?_⟩
  · rcases h.reader hgoes with hreader | ⟨htags, hmatcher, _, hqueue, hreader⟩
    · rw [hreader]
      rcases h.queue with hq | ⟨htags, passed, last, hq, hpassed⟩
      · exact .inl (Reader.queue_next hq)
      · cases passed with
        | nil =>
            refine .inl ?_
            rw [Reader.next, hq]
            rfl
        | cons t passed =>
            have hnext : run.reader.next = (t, { run.reader with queue := passed ++ [last] }) := by
              rw [Reader.next, hq]
              rfl
            obtain ⟨hs, hmatcher⟩ := hgoes.stays hmode h.dialect htags
              (by rw [hnext]; exact hpassed t List.mem_cons_self)
            refine .inr ⟨by rw [hs]; exact htags, passed, last, by rw [hnext], ?_⟩
            rw [hmatcher]
            exact fun u hu => hpassed u (List.mem_cons_of_mem _ hu)
    · obtain ⟨passed, last, hq, hpassed, _⟩ := Reader.lookAhead_queue
        Matcher.lookForExamples_bare Matcher.lookForExamples_congr hqueue
      refine .inr ⟨htags, passed, last, by rw [hreader]; exact hq, ?_⟩
      rw [hmatcher, ← hmode]
      exact hpassed

end Run

/-! ## What becomes of a token -/

/-- Does the error say that something else was expected? -/
def ParseError.isUnexpected (e : ParseError) : Bool :=
  match e.cause with
  | .unexpectedEnd _ | .unexpectedToken _ _ => true
  | _ => false

theorem ParseError.isUnexpected_unexpected (t : Token) (kinds : List TokenKind) :
    (ParseError.unexpected t kinds).isUnexpected = true := by
  unfold unexpected
  split <;> rfl

/-- A token that has been taken: it has been handed to the builder, or left out by a state that
expected something else. -/
structure Fate where
  token : Token
  leftOutBy : Option State

namespace Fate

/-- The token, if it has been handed to the builder. -/
def built? (f : Fate) : Option Token :=
  match f.leftOutBy with
  | none => some f.token
  | some _ => none

/-- The error, if the token has been left out. -/
def error? (f : Fate) : Option ParseError :=
  f.leftOutBy.map fun s => .unexpected f.token s.expected

end Fate

/-- A builder that does not say of anything that it was unexpected. -/
def Builder.Mild (β : Type) {ρ : Type} [Builder β ρ] : Prop :=
  ∀ c (b : β), ∀ r ∈ (receive c b).2, ∀ e ∈ r.toErrors, e.isUnexpected = false

theorem Builder.Mild.feed {β ρ : Type} [Builder β ρ] (h : Builder.Mild β) (cs : List Call) (b : β) :
    ((Builder.feed cs b).2.flatMap Refusal.toErrors).filter ParseError.isUnexpected = [] := by
  induction cs generalizing b with
  | nil => rfl
  | cons c cs ih =>
      rw [Builder.feed_cons_snd, List.flatMap_append, List.filter_append, ih, List.append_nil,
        List.filter_eq_nil_iff]
      intro e he
      obtain ⟨r, hr, he⟩ := List.mem_flatMap.mp he
      rw [h c b r (Option.mem_toList.mp hr) e he]
      exact Bool.false_ne_true

namespace Run

variable {β ρ : Type} [Builder β ρ] {mode : Mode} {s s' : State} {run : Run (Recorder β)}
  {o : Step (Recorder β)}

theorem headerErrors_filter (run : Run (Recorder β)) :
    (run.headerErrors mode s).filter ParseError.isUnexpected = [] := by
  rw [List.filter_eq_nil_iff, headerErrors, refusals, List.map_map]
  intro e he
  obtain ⟨t, _, rfl⟩ := List.mem_map.mp he
  exact Bool.false_ne_true

/-- A turn hands its token to the builder or leaves it out with an error, and not both. -/
theorem Goes.fate (hmild : Builder.Mild β) (hgoes : Goes mode s run o s') :
    ∃ f : Fate, f.token = o.token ∧
      o.run.builder.tokens = run.builder.tokens ++ f.built?.toList ∧
      ∃ es, o.run.errors = run.errors ++ es ∧
        es.filter ParseError.isUnexpected = f.error?.toList := by
  cases hgoes with
  | moved a reading ha hask htoken hfirst hreader hguard hbuilder herrors =>
      refine ⟨⟨o.token, none⟩, rfl, ?_, _, herrors, ?_⟩
      · rw [hbuilder, Recorder.tokens_feed]
        rfl
      · have hfeed := congrArg Prod.snd (Recorder.feed_eq (callsOf a o.token) run.builder)
        rw [List.filter_append, headerErrors_filter, hfeed, hmild.feed]
        rfl
  | skipped hs hbare hmatcher hreader hno hbuilder herrors =>
      refine ⟨⟨o.token, some s⟩, rfl, ?_, _, herrors, ?_⟩
      · rw [hbuilder]
        exact (List.append_nil _).symm
      · rw [List.filter_append, headerErrors_filter, List.nil_append,
          List.filter_cons_of_pos (ParseError.isUnexpected_unexpected _ _), List.filter_nil]
        rfl

/-- The tokens that a run takes. -/
def taken {γ σ : Type} [Builder γ σ] (mode : Mode) (fuel : Nat) (s : State) (run : Run γ) :
    List Token :=
  (run.turns mode fuel s).map fun turn => (turn.outcome mode).token

/-- A run to the end takes what comes next, reads the source once, and hands on or leaves out each
token. -/
theorem steps_in_order (hmild : Builder.Mild β) (hmode : mode.hidden = []) {fuel : Nat}
    {run' : Run (Recorder β)} (hinv : InOrder s run) (hfuel : run.reader.pending.length < fuel)
    (h : run.steps mode fuel s = (run', none)) :
    (run.taken mode fuel s).map Token.bare = run.reader.upcoming ∧
      run'.reader.count = run.reader.total ∧
      ∃ fates : List Fate, fates.map Fate.token = run.taken mode fuel s ∧
        run'.builder.tokens = run.builder.tokens ++ fates.filterMap Fate.built? ∧
        ∃ es, run'.errors = run.errors ++ es ∧
          es.filter ParseError.isUnexpected = fates.filterMap Fate.error? := by
  induction fuel generalizing s run with
  | zero => omega
  | succ fuel ih =>
      obtain ⟨next, hnext, hcases⟩ := steps_inv h
      have hgoes := advance_goes hnext
      obtain ⟨f, hf, hbuilt, es, herrors, hes⟩ := hgoes.fate hmild
      rw [hinv.upcoming hgoes, hgoes.isEnd]
      rcases hcases with ⟨hend, rfl, hturns⟩ | ⟨hend, hsteps, hturns⟩
      all_goals
        rw [taken, hturns, hend]
        rw [← hgoes.isEnd] at hend
      · refine ⟨rfl, hinv.count hgoes hend, [f], ?_, ?_, es, herrors, ?_⟩
        · rw [List.map_singleton, hf]
          rfl
        · rw [hbuilt, List.filterMap_cons, List.filterMap_nil]
          cases f.built? <;> rfl
        · rw [hes, List.filterMap_cons, List.filterMap_nil]
          cases f.error? <;> rfl
      · have hlength := hgoes.pending_length hend
        obtain ⟨htaken, hcount, fates, hfates, hbuilt', es', herrors', hes'⟩ :=
          ih (hinv.goes hmode hgoes) (by omega) hsteps
        refine ⟨?_, ?_, f :: fates, ?_, ?_, es ++ es', ?_, ?_⟩
        · exact congrArg (_ :: ·) htaken
        · rw [hcount, hinv.total hgoes hend]
        · rw [List.map_cons, hf, hfates]
          rfl
        · rw [hbuilt', hbuilt, List.append_assoc, List.filterMap_cons]
          cases f.built? <;> rfl
        · rw [herrors', herrors, List.append_assoc]
        · rw [List.filter_append, hes, hes', List.filterMap_cons]
          cases f.error? <;> rfl

end Run

/-! ## The two builders -/

/-- A builder that refuses calls only because a part of the document cannot be built. -/
def Builder.Blames (β : Type) {ρ : Type} [Builder β ρ] : Prop :=
  ∀ c (b : β) r, (receive c b).2 = some r → ∀ e ∈ r.toErrors, e.isMalformed = true

/-- What cannot be built is not unexpected. -/
theorem Builder.Blames.mild {β ρ : Type} [Builder β ρ] (h : Builder.Blames β) : Builder.Mild β := by
  intro c b r hr e he
  have hmalformed := h c b r hr e he
  unfold ParseError.isMalformed at hmalformed
  unfold ParseError.isUnexpected
  cases hcause : e.cause with
  | unexpectedEnd | unexpectedToken =>
      rw [hcause] at hmalformed
      cases hmalformed
  | _ => rfl

theorem DocumentBuilder.blames : Builder.Blames DocumentBuilder := by
  intro c b r hr e he
  rcases refused_uneven hr with ⟨f, rfl⟩ | ⟨_, _, ts, e', _, huneven, rfl⟩
  · cases he
  · obtain ⟨row, _, rfl⟩ := unevenRow_eq_some huneven
    rw [List.mem_singleton.mp he]
    rfl

theorem DocumentBuilder.mild : Builder.Mild DocumentBuilder := DocumentBuilder.blames.mild

theorem Listing.mild : Builder.Mild Listing := by
  intro c l r hr
  cases c <;> cases hr

/-! ## Parses -/

namespace Parser

variable {β ρ : Type} [Builder β ρ]

/-- The tokens that a parse takes, in order. -/
def taken (parser : Parser β) (matcher : Matcher) (source : Text) : List Token :=
  (parser.opening matcher source).taken parser.mode ((Text.lines source).length + 1) .start

theorem taken_recording (parser : Parser β) (matcher : Matcher) (source : Text) :
    parser.recording.taken matcher source = parser.taken matcher source := by
  have hturns : (parser.opening matcher source).turns parser.mode _ .start = _ :=
    Run.turns_map Recorder.commutes ((Text.lines source).length + 1) _
      (parser.recording.opening matcher source)
  rw [taken, taken, Run.taken, Run.taken, hturns, List.map_map]
  refine List.map_congr_left fun turn _ => ?_
  exact (congrArg Run.Step.token (Run.advance_map Recorder.commutes turn.state turn.run)).symm

/-- Each line is taken once and in order, and is handed to the builder or left out. -/
structure TakesEachOnce (parser : Parser β) (matcher : Matcher) (source : Text) : Prop where
  /-- The source is read once, its end included. -/
  count : (parser.loop matcher source).1.reader.count = (Text.lines source).length + 1
  lines : (parser.taken matcher source).map Token.line = (Text.lines source).map some ++ [none]
  numbers : (parser.taken matcher source).map Token.number =
    (List.range' 1 ((Text.lines source).length + 1)).map Int.ofNat
  /-- What has been taken has one fate each. -/
  fates : ∃ fates : List Fate, fates.map Fate.token = parser.taken matcher source ∧
    fates.filterMap Fate.built? = parser.built matcher source ∧
    fates.filterMap Fate.error? =
      (parser.loop matcher source).1.errors.filter ParseError.isUnexpected

theorem takesEachOnce (hmild : Builder.Mild β) {parser : Parser β} {matcher : Matcher}
    {source : Text}
    (hopen : (Builder.receive (.opened .document) (Builder.reset parser.builder)).2 = none)
    (hmatcher : matcher.default ∈ Dialect.table) (h : (parser.loop matcher source).2 = none) :
    parser.TakesEachOnce matcher source := by
  have hrecording := parser.loop_recording matcher source
  rw [hrecording] at h
  obtain ⟨run, halt, hloop⟩ : ∃ run halt, parser.recording.loop matcher source = (run, halt) :=
    ⟨_, _, rfl⟩
  rw [hloop] at h
  change halt = none at h
  subst h
  have hstart : Run.InOrder .start (parser.recording.opening matcher source) := ⟨hmatcher, .inl rfl⟩
  obtain ⟨htaken, hcount, fates, hfates, hbuilt, es, herrors, hes⟩ :=
    Run.steps_in_order hmild rfl hstart (Nat.lt_succ_self _) hloop
  have hfresh : (parser.taken matcher source).map Token.bare =
      Reader.fresh 0 (Text.lines source) := by
    rw [← taken_recording]
    exact htaken
  refine ⟨?_, ?_, ?_, fates, ?_, ?_, ?_⟩
  · rw [hrecording, hloop]
    change run.reader.count = _
    rw [hcount]
    exact congrArg (· + 1) (Nat.zero_add _)
  · rw [← Reader.fresh_line 0, ← hfresh, List.map_map]
    rfl
  · rw [← Reader.fresh_number 0, ← hfresh, List.map_map]
    rfl
  · rw [hfates]
    exact parser.taken_recording matcher source
  · rw [built_eq hopen, hloop]
    exact hbuilt.symm
  · rw [hrecording, hloop, ← hes]
    exact congrArg (List.filter ParseError.isUnexpected) herrors.symm

/-- No line is lost, doubled or moved, with either builder. If the turns of a parse are not given
up, the source has been read once, its lines and its end have been taken once each and in order,
and each of them has either been handed to the builder or left out with an error of its own. -/
theorem takes_each_line_once (stopAtFirst : Bool) (matcher : Matcher)
    (hmatcher : matcher.default ∈ Dialect.table) (source : Text) (builder : DocumentBuilder)
    (listing : Listing) :
    ((Parser.loop { builder, stopAtFirst } matcher source).2 = none →
      Parser.TakesEachOnce { builder, stopAtFirst } matcher source) ∧
      ((Parser.loop { builder := listing, stopAtFirst } matcher source).2 = none →
        Parser.TakesEachOnce { builder := listing, stopAtFirst } matcher source) :=
  ⟨takesEachOnce DocumentBuilder.mild rfl hmatcher, takesEachOnce Listing.mild rfl hmatcher⟩

/-- An outline whose second tags are not followed by anything. -/
def unfinishedOutline : Text := "Feature:\nScenario Outline:\n@a\n#\nExamples:\n@b\n".toList

/-- Both looks ahead, to the examples and to the end, keep the lines in order. -/
theorem takes_each_line_once_unfinishedOutline :
    Dialect.english ∈ Dialect.table ∧
      (Parser.loop { builder := ({} : DocumentBuilder) } (.new .plain .english)
        unfinishedOutline).2 = none ∧
      (Parser.loop { builder := ({} : Listing) } (.new .plain .english)
        unfinishedOutline).2 = none ∧
      Parser.TakesEachOnce { builder := ({} : DocumentBuilder) } (.new .plain .english)
        unfinishedOutline ∧
      Parser.TakesEachOnce { builder := ({} : Listing) } (.new .plain .english)
        unfinishedOutline := by
  have henglish : Dialect.english ∈ Dialect.table := by decide
  have hdocument : (Parser.loop { builder := ({} : DocumentBuilder) } (.new .plain .english)
      unfinishedOutline).2 = none := by decide +kernel
  have hlisting : (Parser.loop { builder := ({} : Listing) } (.new .plain .english)
      unfinishedOutline).2 = none := by decide +kernel
  have honce := takes_each_line_once false (.new .plain .english) henglish unfinishedOutline {} {}
  exact ⟨henglish, hdocument, hlisting, honce.1 hdocument, honce.2 hlisting⟩

end Parser

end FeatureFile
