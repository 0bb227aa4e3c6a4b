import FeatureFile.Message.Stream
import FeatureFile.Proofs.Keywords
import FeatureFile.Proofs.LeftOut
import FeatureFile.Proofs.Trimming

/-!
# Where errors stand

An error is printed with a place in front of it and reported with a place beside it. The first is
always where the trouble is: the text of the line that was not expected, the row of a table, the
header of a language, or the end of the input (`Cause.StandsAt`). The second is the same place, with
one exception. The header of an unsupported language is read once more, as a comment, and comments
stand at the first column; if the run goes on, the error goes with the token. So an error that is
raised points where it is printed (`ParseError.Raised`), and one that is kept does unless it is about
a header (`ParseError.Kept`).

A line that nothing accepts stands where it was last read, which need not have been in this state: it
may have been looked at before. Such a reading points at the text of the line, unless the line is
blank or a comment. But those are accepted everywhere (`State.accepts_gaps`).
-/

namespace FeatureFile

/-! ## Places -/

/-- Where in the lines of a source an error of that cause stands. -/
inductive Cause.StandsAt (ls : List Line) : Cause → Place → Prop where
  /-- A line that was not expected stands at its text, which is quoted. -/
  | token {n : Nat} {l : Line} (h : ls[n]? = some l) (expected : List Text) :
      StandsAt ls (.unexpectedToken expected (Text.trim l)) ⟨n + 1, some (l.indent + 1)⟩
  /-- The end of the input stands behind the last line. -/
  | eof (expected : List Text) : StandsAt ls (.unexpectedEnd expected) ⟨ls.length + 1, some 0⟩
  /-- A row that differs in length stands at its text. -/
  | row {n : Nat} {l : Line} (h : ls[n]? = some l) (hrow : l.startsWith "|".toList = true) :
      StandsAt ls .unevenTable ⟨n + 1, some (l.indent + 1)⟩
  /-- A header stands at its text too. -/
  | header {n : Nat} {l : Line} {name : Text} (h : ls[n]? = some l)
      (hname : Matcher.languageOf l = some name) (hunknown : Dialect.byName name = none) :
      StandsAt ls (.unsupportedLanguage name) ⟨n + 1, some (l.indent + 1)⟩

namespace ParseError

/-- Where an error is reported that does not end the run. -/
def keptPlace (e : ParseError) : Place :=
  match e.cause with
  | .unsupportedLanguage _ => ⟨e.stamp.line, some 1⟩
  | _ => e.stamp

/-- The error is printed and reported where it stands. -/
structure Raised (ls : List Line) (e : ParseError) : Prop where
  stands : e.cause.StandsAt ls e.stamp
  place : e.place = e.stamp

/-- The error is printed where it stands, and reported there unless it is about a header. -/
structure Kept (ls : List Line) (e : ParseError) : Prop where
  stands : e.cause.StandsAt ls e.stamp
  place : e.place = e.keptPlace

/-- The errors as a run collects them: it keeps as many as it tolerates and raises the next. -/
def Filed (ls : List Line) (es : List ParseError) : Prop :=
  ∀ i e, es[i]? = some e → if i < Run.tolerance then e.Kept ls else e.Raised ls

theorem Filed.append {ls : List Line} {es : List ParseError} {e : ParseError} (h : Filed ls es)
    (he : if es.length < Run.tolerance then e.Kept ls else e.Raised ls) :
    Filed ls (es ++ [e]) := by
  intro i e' hi
  rcases Nat.lt_trichotomy i es.length with hlt | rfl | hgt
  · rw [List.getElem?_append_left hlt] at hi
    exact h i e' hi
  · rw [List.getElem?_concat_length] at hi
    rw [← Option.some.inj hi]
    exact he
  · rw [List.getElem?_eq_none (by simp; omega)] at hi
    cases hi

end ParseError

/-- The errors that end a run are well placed. -/
def Halt.WellPlaced (ls : List Line) : Halt → Prop
  | .error e => e.Raised ls
  | .errors es => ParseError.Filed ls es
  | .fault _ => True

/-! ## Readings and columns -/

theorem Matcher.readTitle_indent {m : Matcher} {kind : TokenKind} {keywords : List Text} {l : Line}
    {reading : Reading} (h : m.readTitle kind keywords l = some reading) :
    reading.indent = l.indent := by
  obtain ⟨keyword, _, rfl⟩ := Option.map_eq_some_iff.mp h
  rfl

/-- A reading stands at the text of its line, apart from blank lines, comments and free text. -/
theorem Matcher.readLine_indent {m next : Matcher} {kind : TokenKind} {l : Line} {reading : Reading}
    (h : m.readLine kind l = .yes reading next) (hkind : kind ≠ .other) :
    l.isBlank = true ∨ l.startsWith "#".toList = true ∨ reading.indent = l.indent := by
  cases kind <;> simp only [readLine] at h
  case eof => cases h
  case empty =>
    split at h
    · exact .inl ‹_›
    · cases h
  case comment =>
    split at h
    · exact .inr (.inl ‹_›)
    · cases h
  case tagLine =>
    split at h
    · cases h
      exact .inr (.inr rfl)
    · cases h
  case featureLine | backgroundLine | scenarioLine | scenarioOutlineLine | examplesLine =>
    exact .inr (.inr (readTitle_indent (verdictOf_yes h).1))
  case stepLine =>
    obtain ⟨keyword, _, rfl⟩ := Option.map_eq_some_iff.mp (verdictOf_yes h).1
    exact .inr (.inr rfl)
  case docStringSeparator =>
    unfold readSeparator at h
    split at h <;> split at h <;> cases h <;> exact .inr (.inr rfl)
  case tableRow =>
    split at h
    · split at h
      · cases h
      · cases h
        exact .inr (.inr rfl)
    · cases h
  case language =>
    unfold readLanguage at h
    split at h
    · cases h
    · split at h
      · cases h
      · cases h
        exact .inr (.inr rfl)
  case other => exact absurd rfl hkind

/-- If the token has been read, its reading stands at the text of its line, unless the line is blank
or a comment. -/
def Token.Aligned (t : Token) : Prop :=
  ∀ l, t.line = some l →
    l.isBlank = true ∨ l.startsWith "#".toList = true ∨ ∀ r ∈ t.reading, r.indent = l.indent

theorem Token.aligned_of_reading {t : Token} (h : t.reading = none) : t.Aligned := by
  intro l _
  rw [h]
  exact .inr (.inr fun r hr => nomatch hr)

theorem Matcher.ask_aligned {m next : Matcher} {kind : TokenKind} {t : Token} {reading : Reading}
    (h : m.ask [] kind t = .yes reading next) (hkind : kind ≠ .other) :
    (t.withReading reading).Aligned := by
  intro l hl
  rw [Token.withReading_line] at hl
  rw [ask_of_line hl rfl] at h
  rcases readLine_indent h hkind with hblank | hhash | hindent
  · exact .inl hblank
  · exact .inr (.inl hhash)
  · refine .inr (.inr fun r hr => ?_)
    rw [← Option.some.inj hr]
    exact hindent

theorem Matcher.firstReading_aligned {m : Matcher} {t u : Token} {kinds : List TokenKind}
    (h : m.firstReading [] t kinds = some u) (hkinds : .other ∉ kinds) : u.Aligned := by
  induction kinds with
  | nil => cases h
  | cons kind kinds ih =>
      rw [List.mem_cons, not_or] at hkinds
      rw [firstReading] at h
      split at h
      · next hask =>
          cases h
          exact ask_aligned hask (Ne.symm hkinds.1)
      · exact ih h hkinds.2

theorem Matcher.lookForExamples_aligned {m : Matcher} {t : Token} (h : t.Aligned) :
    (m.lookForExamples [] t).2.Aligned := by
  unfold lookForExamples
  split
  · exact firstReading_aligned ‹_› (by decide)
  · split
    · exact firstReading_aligned ‹_› (by decide)
    · exact h

namespace Reader

theorem next_aligned {r : Reader} (h : ∀ t ∈ r.queue, t.Aligned) :
    r.next.1.Aligned ∧ ∀ t ∈ r.next.2.queue, t.Aligned := by
  obtain ⟨queue, unread, count⟩ := r
  cases queue with
  | cons t ts => exact List.forall_mem_cons.mp h
  | nil =>
      refine ⟨Token.aligned_of_reading ?_, ?_⟩
      · cases unread <;> rfl
      · rw [queue_next rfl]
        exact fun t ht => nomatch ht

end Reader

/-! ## Refused headers -/

/-- What is refused is the header of an unsupported language, read where its text stands. -/
theorem Matcher.ask_refused {m : Matcher} {hidden : List TokenKind} {kind : TokenKind} {t : Token}
    {reading : Reading} (h : m.ask hidden kind t = .unsupported reading) :
    ∃ l name, t.line = some l ∧ languageOf l = some name ∧ Dialect.byName name = none ∧
      reading.text = some name ∧ reading.indent = l.indent := by
  obtain rfl := ask_unsupported h
  rcases ask_cases m hidden .language t with hno | ⟨_, heof, _⟩ | ⟨l, hl, hline⟩
  · rw [hno] at h
    cases h
  · cases heof
  · rw [hline, readLine, readLanguage] at h
    split at h
    · cases h
    · next name hname =>
        dsimp only at h
        split at h
        · next hspeak =>
            cases h
            exact ⟨l, name, hl, hname, Option.map_eq_none_iff.mp hspeak, rfl, rfl⟩
        · cases h

/-- As long as no move is found the token keeps a reading that stands at its text. -/
theorem Trial.run_aligned {moves : List Move} {trial : Trial}
    (hg : ∀ b ∈ moves, b.guarded = true → b.kind = .tagLine) (h : trial.token.Aligned)
    (hmove : (run [] moves trial).move = .ok none) : (run [] moves trial).token.Aligned := by
  induction moves generalizing trial with
  | nil => exact h
  | cons move moves ih =>
      have hrest : ∀ b ∈ moves, b.guarded = true → b.kind = .tagLine :=
        fun b hb => hg b (List.mem_cons_of_mem _ hb)
      rw [run_cons] at hmove ⊢
      split at hmove
      · exact ih hrest h hmove
      · cases hmove
      · next reading hask =>
          refine ih hrest (fun l hl => .inr (.inr fun r hr => ?_)) hmove
          obtain ⟨l', _, hl', _, _, _, hindent⟩ := Matcher.ask_refused hask
          rw [← Option.some.inj hr, hindent, Option.some.inj (hl'.symm.trans hl)]
      · next reading matcher hask =>
          split at hmove
          · split at hmove
            · cases hmove
            · next hguarded hahead =>
                have hkind := hg move List.mem_cons_self hguarded
                rw [if_pos hguarded, if_neg hahead]
                refine ih hrest (Matcher.ask_aligned hask ?_) hmove
                rw [hkind]
                exact TokenKind.noConfusion
          · cases hmove

/-- What a trial has refused is the token itself, read as a header. -/
theorem Trial.mem_refused {hidden : List TokenKind} {moves : List Move} {trial : Trial} {t : Token}
    (hg : ∀ b ∈ moves, b.guarded = true → b.kind = .tagLine)
    (h : t ∈ (run hidden moves trial).refused) : t ∈ trial.refused ∨
      ((∃ b ∈ moves, b.kind = .language) ∧
        ∃ reading, trial.matcher.ask hidden .language trial.token = .unsupported reading ∧
          t = trial.token.withReading reading) := by
  induction moves generalizing trial with
  | nil => exact .inl h
  | cons move moves ih =>
      have hrest : ∀ b ∈ moves, b.guarded = true → b.kind = .tagLine :=
        fun b hb => hg b (List.mem_cons_of_mem _ hb)
      have hlater : (∃ b ∈ moves, b.kind = .language) → ∃ b ∈ move :: moves, b.kind = .language :=
        fun ⟨b, hb, hkind⟩ => ⟨b, List.mem_cons_of_mem _ hb, hkind⟩
      rw [run_cons] at h
      split at h
      · exact (ih hrest h).imp_right fun hmore => ⟨hlater hmore.1, hmore.2⟩
      · exact .inl h
      · next reading hask =>
          have hkind := Matcher.ask_unsupported hask
          rw [hkind] at hask
          rcases ih hrest h with h | ⟨hmore, hagain⟩
          · rcases List.mem_append.mp h with h | h
            · exact .inl h
            · exact .inr ⟨⟨move, List.mem_cons_self, hkind⟩, reading, hask, List.mem_singleton.mp h⟩
          · exact .inr ⟨hlater hmore, hagain⟩
      · next reading matcher hask =>
          split at h
          · next hguarded =>
              split at h
              · exact .inl h
              · -- A tag line leaves the matcher as it is, so that the header is judged as before.
                rw [hg move List.mem_cons_self hguarded] at hask
                have hmatcher : matcher = trial.matcher :=
                  (Matcher.ask_yes hask).2.eq TokenKind.noConfusion TokenKind.noConfusion
                rw [← hmatcher]
                exact (ih hrest h).imp_right fun hmore => ⟨hlater hmore.1, hmore.2⟩
          · exact .inl h

theorem Line.startsWith_unique {l : Line} {c d : Char} (hc : l.startsWith [c] = true)
    (hd : l.startsWith [d] = true) : c = d :=
  Option.some.inj ((head_of_startsWith hc).symm.trans (head_of_startsWith hd))

/-- Behind a refused header, the line is read as a comment. -/
theorem State.decide_of_refused {s : State} {m : Matcher} {r : Reader} {t u : Token}
    (hm : m.dialect ∈ Dialect.table) (hu : u ∈ (s.decide [] t m r).refused) :
    ∃ reading, m.ask [] .language t = .unsupported reading ∧ u = t.withReading reading ∧
      (s.decide [] t m r).token.location = ⟨t.number, 1⟩ := by
  rcases Trial.mem_refused (fun b hb => s.kind_of_guarded b (mem_trials.mp hb)) hu with
    h | ⟨⟨b, hb, hkind⟩, reading, hask, rfl⟩
  · cases h
  change m.ask [] .language t = .unsupported reading at hask
  refine ⟨reading, hask, rfl, ?_⟩
  obtain rfl : s = .start := by
    by_contra hs
    exact s.not_language hs b (mem_trials.mp hb) hkind
  obtain ⟨l, name, hl, hname, _⟩ := Matcher.ask_refused hask
  have hcomment := (Matcher.ask_comment_of_unsupported hask).2
  have hhash : l.startsWith ['#'] = true := Matcher.hash_of_languageOf hname
  cases State.start.decide_decides [] t m r with
  | found a reading' ha hmove hyes htoken hfirst =>
      have hline : m.ask [] a.kind t = m.readLine a.kind l := Matcher.ask_of_line hl rfl
      have hread := hline.symm.trans hyes
      rw [htoken]
      simp only [moves, List.mem_cons, List.not_mem_nil, or_false] at ha
      rcases ha with rfl | rfl | rfl | rfl | rfl | rfl
      · cases hread
      · cases hask.symm.trans hyes
      · have htags : m.readLine .tagLine l = .no := Matcher.readLine_of_hash hm hhash (by decide)
        cases htags.symm.trans hread
      · have htitle : m.readLine .featureLine l = .no :=
          Matcher.readLine_of_hash hm hhash (by decide)
        cases htitle.symm.trans hread
      · -- A comment
        obtain ⟨hreading, _⟩ := Verdict.yes.inj ((if_pos hhash).symm.trans hread)
        rw [← hreading]
        rfl
      · rw [hfirst .comment (by decide)] at hcomment
        cases hcomment
  | none hmove hmatcher hreader hno =>
      have hskip : (m.ask [] .comment t).isYes = false :=
        hno (Move.stay .comment .start) (by decide)
      rw [hskip] at hcomment
      cases hcomment
  | broken a fault ha hmove hbroken =>
      obtain ⟨_, l', hl', hpipe, _⟩ := Matcher.ask_broken hbroken
      rw [Option.some.inj (hl.symm.trans hl')] at hhash
      cases Line.startsWith_unique hhash hpipe

namespace ParseError

variable {ls : List Line} {t : Token}

/-- The error of a token that was not expected, at the end or at a line with text. -/
theorem unexpected_raised {kinds : List TokenKind} (hfresh : t.bare ∈ Reader.fresh 0 ls)
    (hend : t.isEnd = true → t.reading = none) (halign : t.Aligned)
    (htext : ∀ l, t.line = some l → l.isBlank = false ∧ l.startsWith "#".toList = false) :
    (unexpected t kinds).Raised ls ∧ (unexpected t kinds).Kept ls := by
  rcases Reader.mem_fresh hfresh with ⟨n, l, hn, hl, hnumber⟩ | ⟨hl, hnumber⟩
  · rw [Token.bare_line] at hl
    rw [Token.bare_number] at hnumber
    have hplace : unexpectedPlace l t.location.place = ⟨n + 1, some (l.indent + 1)⟩ := by
      have hline : t.number = n + 1 := by omega
      unfold unexpectedPlace
      split
      · rw [← hline]
        rfl
      · next hcolumn =>
          obtain ⟨hblank, hhash⟩ := htext l hl
          cases hreading : t.reading with
          | none => simp [Token.location, Location.place, Token.column, hreading] at hcolumn
          | some r =>
              have hindent : r.indent = l.indent := by
                rcases halign l hl with h | h | h
                · rw [hblank] at h
                  cases h
                · rw [hhash] at h
                  cases h
                · exact h r hreading
              simp [Token.location, Location.place, Token.column, hreading, hindent, hline]
    have heq : unexpected t kinds = .placed ⟨n + 1, some (l.indent + 1)⟩
        (.unexpectedToken (expectedNames kinds) (Text.trim l)) := by
      rw [unexpected, hl]
      simp only [unexpectedLine, hplace, Line.trimmed, Text.trim_trimLeft]
    rw [heq]
    exact ⟨⟨.token hn _, rfl⟩, ⟨.token hn _, rfl⟩⟩
  · rw [Token.bare_line] at hl
    rw [Token.bare_number] at hnumber
    have hreading : t.reading = none := hend (by rw [Token.isEnd, hl]; rfl)
    have heq : unexpected t kinds = .placed ⟨ls.length + 1, some 0⟩
        (.unexpectedEnd (expectedNames kinds)) := by
      rw [unexpected, hl]
      simp [unexpectedEnd, Token.location, Location.place, Token.column, hreading, hnumber]
    rw [heq]
    exact ⟨⟨.eof _, rfl⟩, ⟨.eof _, rfl⟩⟩

/-- The error of a header, as it is raised and as it is kept when the header has been read as a
comment. -/
theorem unsupported_raised {m : Matcher} {reading : Reading} {u : Token}
    (hfresh : t.bare ∈ Reader.fresh 0 ls) (hask : m.ask [] .language t = .unsupported reading)
    (hu : u.location = ⟨t.number, 1⟩) :
    (unsupportedLanguage (t.withReading reading) (t.withReading reading).location.place).Raised ls ∧
      (unsupportedLanguage (t.withReading reading) u.location.place).Kept ls := by
  obtain ⟨l, name, hl, hname, hunknown, htext, hindent⟩ := Matcher.ask_refused hask
  have hcause : ∀ place, unsupportedLanguage (t.withReading reading) place =
      { cause := .unsupportedLanguage name, stamp := ⟨t.number, some (l.indent + 1)⟩, place } := by
    intro place
    simp [unsupportedLanguage, Token.location, Location.place, Token.column, htext, hindent]
  rcases Reader.mem_fresh hfresh with ⟨n, l', hn, hl', hnumber⟩ | ⟨hnone, _⟩
  · obtain rfl : l = l' := Option.some.inj (hl.symm.trans hl')
    have hline : t.number = n + 1 := by
      rw [← Token.bare_number, hnumber]
      omega
    rw [hcause, hcause, hu, hline]
    refine ⟨⟨.header hn hname hunknown, ?_⟩, ⟨.header hn hname hunknown, rfl⟩⟩
    simp [Token.location, Location.place, Token.column, hindent, hline]
  · rw [Token.bare_line, hl] at hnone
    cases hnone

end ParseError

/-! ## Builders -/

/-- If the token is a row, it stands at the text of its line. -/
def Token.InPlace (ls : List Line) (t : Token) : Prop :=
  t.kind? = some .tableRow → Cause.unevenTable.StandsAt ls t.location.place

/-- A builder that has only errors about rows that it was handed. -/
structure Builder.Cites {β ρ : Type} [Builder β ρ] (ls : List Line) (Holds : β → Prop) : Prop where
  reset : ∀ b, Holds (Builder.reset b)
  receive : ∀ c b, Holds b → (∀ t, c = .read t → t.InPlace ls) → Holds (Builder.receive c b).1
  refusal : ∀ c b, Holds b → ∀ r, (Builder.receive c b).2 = some r →
    (∃ f, r = .fault f) ∨ ∃ e, r = .error e ∧ e.Raised ls ∧ e.Kept ls

theorem DocumentBuilder.cites (ls : List Line) : Builder.Cites ls
    (DocumentBuilder.Rows fun t => Cause.unevenTable.StandsAt ls t.location.place) where
  reset _ := by
    intro n hn t ht
    rw [List.mem_singleton.mp hn] at ht
    cases ht
  receive c b h hc := h.receive hc
  refusal c b h r hr := by
    rcases refused_uneven hr with hf | ⟨n, hn, ts, e, hts, huneven, rfl⟩
    · exact .inl hf
    · obtain ⟨row, hrow, rfl⟩ := unevenRow_eq_some huneven
      obtain ⟨t, ht, rfl⟩ := List.mem_map.mp hrow
      have hstands := h n hn t (Node.mem_of_tokensOf hts t ht)
      exact .inr ⟨_, rfl, ⟨hstands, rfl⟩, ⟨hstands, rfl⟩⟩

theorem Listing.cites (ls : List Line) : Builder.Cites ls fun _ : Listing => True where
  reset _ := trivial
  receive _ _ _ _ := trivial
  refusal c l _ r hr := by cases c <;> cases hr

/-! ## Runs -/

namespace Run

variable {β ρ : Type} {ls : List Line} {Holds : β → Prop} {mode : Mode} {run : Run β}

/-- The errors of a run are well placed, those it has collected and those that ended it. -/
def Reports (ls : List Line) (Holds : β → Prop) : Run β × Option Halt → Prop
  | (run, none) => ParseError.Filed ls run.errors ∧ Holds run.builder
  | (_, some halt) => halt.WellPlaced ls

theorem Reports.andThen {x : Run β × Option Halt} {f : Run β → Run β × Option Halt}
    (h : Reports ls Holds x) (hf : ∀ run, Reports ls Holds (run, none) → Reports ls Holds (f run)) :
    Reports ls Holds (Run.andThen x f) := by
  obtain ⟨run, _ | halt⟩ := x
  · exact hf run h
  · exact h

theorem Reports.report {raised kept : ParseError} (h : Reports ls Holds (run, none))
    (hraised : raised.Raised ls) (hkept : kept.Kept ls) :
    Reports ls Holds (run.report mode raised kept) := by
  unfold Run.report
  split
  · exact hraised
  · split
    · next hroom =>
        refine ⟨h.1.append ?_, h.2⟩
        rw [if_pos hroom]
        exact hkept
    · next hfull =>
        refine h.1.append ?_
        rw [if_neg hfull]
        exact hraised

theorem Reports.reportAll {es : List (ParseError × ParseError)} (h : Reports ls Holds (run, none))
    (hes : ∀ e ∈ es, e.1.Raised ls ∧ e.2.Kept ls) :
    Reports ls Holds (run.reportAll mode es) := by
  induction es generalizing run with
  | nil => exact h
  | cons e es ih =>
      obtain ⟨⟨hraised, hkept⟩, hrest⟩ := List.forall_mem_cons.mp hes
      rw [reportAll_cons]
      exact (h.report hraised hkept).andThen fun mid hmid => ih hmid hrest

variable [Builder β ρ]

theorem Reports.call {c : Call} (hb : Builder.Cites ls Holds) (h : Reports ls Holds (run, none))
    (hc : ∀ t, c = .read t → t.InPlace ls) : Reports ls Holds (run.call mode c) := by
  have hnext : Reports ls Holds ({ run with builder := (Builder.receive c run.builder).1 }, none) :=
    ⟨h.1, hb.receive c run.builder h.2 hc⟩
  change Reports ls Holds (Run.refuse mode (Builder.receive c run.builder).2
    { run with builder := (Builder.receive c run.builder).1 })
  cases hr : (Builder.receive c run.builder).2 with
  | none => exact hnext
  | some r =>
      rcases hb.refusal c run.builder h.2 r hr with ⟨f, rfl⟩ | ⟨e, rfl, hraised, hkept⟩
      · trivial
      · exact hnext.report hraised hkept

theorem Reports.callAll {cs : List Call} (hb : Builder.Cites ls Holds)
    (h : Reports ls Holds (run, none)) (hcs : ∀ t, .read t ∈ cs → t.InPlace ls) :
    Reports ls Holds (run.callAll mode cs) := by
  induction cs generalizing run with
  | nil => exact h
  | cons c cs ih =>
      rw [callAll_cons]
      refine (h.call hb fun t ht => hcs t (ht ▸ List.mem_cons_self)).andThen fun mid hmid => ?_
      exact ih hmid fun t ht => hcs t (List.mem_cons_of_mem _ ht)

/-- What is known of a run on the way through these lines. -/
structure Oriented (ls : List Line) (s : State) (run : Run β) : Prop extends OnTrack s run where
  upcoming : run.reader.upcoming <:+ Reader.fresh 0 ls
  aligned : ∀ t ∈ run.reader.queue, t.Aligned

variable {s s' : State} {o : Step β}

theorem Oriented.goes (h : Oriented ls s run) (hmode : mode.hidden = [])
    (hgoes : Goes mode s run o s') (hend : o.token.isEnd = false) : Oriented ls s' o.run := by
  refine ⟨h.toOnTrack.goes hmode hgoes, ?_, ?_⟩
  · have hsplit := h.toInOrder.upcoming hgoes
    rw [hend, if_neg Bool.false_ne_true] at hsplit
    exact (hsplit ▸ List.suffix_cons _ _).trans h.upcoming
  · rcases h.toInOrder.reader hgoes with hreader | ⟨_, _, _, hqueue, hreader⟩
    · rw [hreader]
      exact (Reader.next_aligned h.aligned).2
    · intro t ht
      rw [hreader, hmode] at ht
      obtain ⟨u, hu, rfl⟩ := Reader.mem_lookAhead_queue hqueue ht
      exact Matcher.lookForExamples_aligned (Token.aligned_of_reading hu)

theorem Oriented.fresh (h : Oriented ls s run) : run.reader.next.1.bare ∈ Reader.fresh 0 ls := by
  refine h.upcoming.subset ?_
  rw [Reader.upcoming_eq]
  exact List.mem_cons_self

/-- The calls of a move hand over one token, a row at the text of its line if it is one. -/
theorem Oriented.inPlace (h : Oriented ls s run) {a : Move} {reading : Reading} {next : Matcher}
    (hask : run.matcher.ask [] a.kind run.reader.next.1 = .yes reading next) :
    ∀ t, .read t ∈ callsOf a (run.reader.next.1.withReading reading) → t.InPlace ls := by
  intro t ht hkind
  have hread : t ∈ (callsOf a (run.reader.next.1.withReading reading)).filterMap Call.token? :=
    List.mem_filterMap.mpr ⟨_, ht, rfl⟩
  rw [callsOf_token, List.mem_singleton] at hread
  subst hread
  have hrow : a.kind = .tableRow := by
    rw [← (Matcher.ask_yes hask).1]
    exact Option.some.inj hkind
  rw [hrow] at hask
  rcases Reader.mem_fresh h.fresh with ⟨n, l, hn, hl, hnumber⟩ | ⟨hl, _⟩
  · rw [Token.bare_line] at hl
    rw [Matcher.ask_of_line hl rfl, Matcher.readLine] at hask
    split at hask
    · next hpipe =>
        split at hask
        · cases hask
        · cases hask
          have hline : run.reader.next.1.number = n + 1 := by
            rw [← Token.bare_number, hnumber]
            omega
          rw [Location.place, Token.location, Token.withReading_number, hline]
          exact .row hn hpipe
    · cases hask
  · rw [Token.bare_line] at hl
    have hend := (Matcher.ask_yes_isEnd hask).mp (by rw [Token.isEnd, hl]; rfl)
    cases hend

/-- A turn reports nothing but errors that are well placed. -/
theorem Oriented.advance (hb : Builder.Cites ls Holds) (hmode : mode.hidden = [])
    (h : Oriented ls s run) (hreports : Reports ls Holds (run, none)) :
    Reports ls Holds (run.advance mode s).ended := by
  have hdec : s.Decides [] run.reader.next.1 run.matcher run.reader.next.2
      (run.decision mode s) := by
    rw [decision, hmode]
    exact s.decide_decides _ _ _ _
  rw [ended_advance]
  refine Reports.andThen (Reports.reportAll ⟨hreports.1, hreports.2⟩ ?_) fun mid hmid => ?_
  · -- The headers that were refused.
    intro e he
    obtain ⟨header, hheader, rfl⟩ := List.mem_map.mp he
    rw [decision, hmode] at hheader ⊢
    obtain ⟨reading, hask, rfl, hplace⟩ := State.decide_of_refused h.dialect hheader
    exact ParseError.unsupported_raised h.fresh hask hplace
  · unfold settle
    cases hdec with
    | found a reading ha hmove hask htoken =>
        simp only [hmove]
        rw [htoken]
        exact hmid.callAll hb (h.inPlace hask)
    | broken a fault ha hmove hask =>
        simp only [hmove]
        trivial
    | none hmove hmatcher hreader hno =>
        simp only [hmove]
        split
        · trivial
        · next hs =>
            have htrial : run.decision mode s =
                s.decide [] run.reader.next.1 run.matcher run.reader.next.2 := by
              rw [decision, hmode]
            have hbare : (run.decision mode s).token.bare = run.reader.next.1.bare :=
              State.decide_bare
            obtain ⟨hraised, hkept⟩ : (ParseError.unexpected (run.decision mode s).token
                s.expected).Raised ls ∧ (ParseError.unexpected (run.decision mode s).token
                  s.expected).Kept ls := by
              refine ParseError.unexpected_raised (hbare ▸ h.fresh) (fun hend => ?_) ?_ fun l hl => ?_
              · rw [Token.isEnd_eq_of_bare_eq hbare] at hend
                rw [htrial, State.decide_token_of_end hend hno]
                exact h.plainEnd.next.1 hend
              · rw [htrial] at hmove ⊢
                exact Trial.run_aligned (fun b hb => s.kind_of_guarded b (State.mem_trials.mp hb))
                  (Reader.next_aligned h.aligned).1 hmove
              · rw [Token.line_eq_of_bare_eq hbare] at hl
                exact State.text_of_unexpected hs hl hno
            exact hmid.report hraised hkept

theorem Oriented.steps (hb : Builder.Cites ls Holds) (hmode : mode.hidden = []) {fuel : Nat}
    (h : Oriented ls s run) (hreports : Reports ls Holds (run, none)) :
    Reports ls Holds (run.steps mode fuel s) := by
  induction fuel generalizing s run with
  | zero => exact hreports
  | succ fuel ih =>
      have hturn := h.advance hb hmode hreports
      rw [Run.steps]
      cases hnext : (run.advance mode s).next with
      | error halt =>
          rw [Step.ended, hnext] at hturn
          exact hturn
      | ok next =>
          rw [Step.ended, hnext] at hturn
          simp only []
          split
          · exact hturn
          · next hend =>
              exact ih (h.goes hmode (advance_goes hnext) (by simpa using hend)) hturn

end Run

/-! ## Errors that are reported -/

/-- The line is an indented header of a language that is not supported. -/
def Line.isStrayHeader (l : Line) : Bool :=
  l.indent != 0 && (Matcher.languageOf l).any fun name => (Dialect.byName name).isNone

/-- Only an indented header makes an error point elsewhere. -/
theorem ParseError.Kept.place_eq_stamp {ls : List Line} {e : ParseError} (h : e.Kept ls)
    (hls : ∀ l ∈ ls, l.isStrayHeader = false) : e.place = e.stamp := by
  obtain ⟨cause, stamp, place⟩ := e
  obtain ⟨hstands, hplace⟩ := h
  cases hstands with
  | token hn expected => exact hplace
  | eof expected => exact hplace
  | row hn hrow => exact hplace
  | @header n l name hn hname hunknown =>
      have hindent : l.indent = 0 := by
        have hstray := hls l (List.mem_of_getElem? hn)
        rw [Line.isStrayHeader, hname, Option.any_some, hunknown] at hstray
        simpa using hstray
      rw [hplace, keptPlace, hindent]
      rfl

theorem Halt.WellPlaced.of_mem {ls : List Line} {halt : Halt} (h : halt.WellPlaced ls)
    {es : List ParseError} (hes : Stream.errorsOf halt = .ok es) {e : ParseError} (he : e ∈ es) :
    e.Kept ls ∨ e.Raised ls := by
  cases halt with
  | error e' =>
      cases hes
      rw [List.mem_singleton.mp he]
      exact .inr h
  | errors es' =>
      cases hes
      obtain ⟨i, hi⟩ := List.mem_iff_getElem?.mp he
      have hfiled := h i e hi
      split at hfiled
      · exact .inl hfiled
      · exact .inr hfiled
  | fault f => cases hes

theorem Stream.not_mem_accepted {s : Stream} {message uri uri' : Json} {d : Document}
    {ms : List Message} {e : ParseError} (h : s.accepted message uri d = .ok ms) :
    .attachment uri' e ∉ ms := by
  have hfront : .attachment uri' e ∉ (if s.options.source then [Message.source message] else []) ++
      (if s.options.document then [Message.document uri d] else []) := by
    cases s.options.source <;> cases s.options.document <;> simp
  unfold accepted at h
  dsimp only at h
  split at h
  · cases hpickles : d.pickles s.names with
    | error f =>
        rw [hpickles] at h
        cases h
    | ok ps =>
        rw [hpickles] at h
        cases h
        rw [List.mem_append, not_or]
        exact ⟨hfront, by simp⟩
  · cases h
    exact hfront

/-- The attachments about a source are about the errors of its parse. -/
theorem Stream.of_mem_respond {s : Stream} {message uri uri' : Json} {source : Text}
    {ms : List Message} {e : ParseError} (huri : field "uri" message = .ok uri)
    (hdata : field "data" message = .ok (.str source)) (hms : (s.respond message).1 = .ok ms)
    (he : .attachment uri' e ∈ ms) : uri' = uri ∧ ∃ halt es,
      (s.parser.parse s.matcher source).outcome = .error halt ∧ errorsOf halt = .ok es ∧ e ∈ es := by
  rw [respond, huri, hdata] at hms
  cases houtcome : (s.parser.parse s.matcher source).outcome with
  | error halt =>
      simp only [houtcome] at hms
      cases hes : errorsOf halt with
      | error f =>
          rw [hes] at hms
          cases hms
      | ok es =>
          rw [hes] at hms
          cases hms
          obtain ⟨e', he', hsame⟩ := List.mem_map.mp he
          cases hsame
          exact ⟨rfl, halt, es, rfl, hes, he'⟩
  | ok d =>
      exfalso
      cases d with
      | none =>
          simp only [houtcome] at hms
          cases hms
          cases he
      | some d =>
          simp only [houtcome] at hms
          exact not_mem_accepted hms he

namespace Parser

variable {β ρ : Type} [Builder β ρ] {Holds : β → Prop}

/-- The errors of a parse are well placed in the lines of its source. -/
theorem wellPlaced {source : Text} (hb : Builder.Cites (Text.lines source) Holds)
    {parser : Parser β} {matcher : Matcher} (hmatcher : matcher.default ∈ Dialect.table)
    (hopen : (Builder.receive (.opened .document) (Builder.reset parser.builder)).2 = none)
    {halt : Halt} (h : (parser.parse matcher source).outcome = .error halt) :
    halt.WellPlaced (Text.lines source) := by
  have hstart : Run.Oriented (Text.lines source) .start (parser.opening matcher source) :=
    { dialect := hmatcher
      queue := .inl rfl
      plainEnd := fun t ht => nomatch ht
      upcoming := List.suffix_rfl
      aligned := fun t ht => nomatch ht }
  have hempty : ParseError.Filed (Text.lines source) [] := fun i e hi => by cases hi
  have hholds : Holds (parser.opening matcher source).builder :=
    hb.receive _ _ (hb.reset _) fun t ht => nomatch ht
  have hloop : Run.Reports (Text.lines source) Holds (parser.loop matcher source) :=
    hstart.steps hb rfl ⟨hempty, hholds⟩
  have hcomplete : Run.Reports (Text.lines source) Holds
      ((parser.start matcher source).complete parser.mode) := by
    rw [complete_start (call_opened hopen)]
    refine hloop.andThen fun last hlast => ?_
    refine (hlast.call hb fun t ht => Call.noConfusion ht).andThen fun closed hclosed => ?_
    split
    · exact hclosed
    · exact hclosed.1
  rw [parse_eq] at h
  dsimp only at h
  generalize (parser.start matcher source).complete parser.mode = x at h hcomplete
  rcases x with ⟨closed, _ | halt'⟩
  · -- Only a fault keeps a parse without errors from its result.
    change (Builder.result closed.builder).mapError Halt.fault = .error halt at h
    cases hresult : Builder.result closed.builder with
    | error fault =>
        rw [hresult] at h
        cases h
        trivial
    | ok r =>
        rw [hresult] at h
        cases h
  · cases h
    exact hcomplete

/-- Every error is printed where its trouble stands, with either builder. It is reported there too,
unless it is about a header and does not end the run: then it is reported at the first column of the
line, which is the same place only if the header is not indented. Attachments point where their error
is reported, and their text starts with where it is printed. -/
theorem errors_stand_where_printed (stopAtFirst : Bool) (matcher : Matcher)
    (hmatcher : matcher.default ∈ Dialect.table) (source : Text) (builder : DocumentBuilder)
    (listing : Listing) :
    (∀ halt, ((parse { builder, stopAtFirst } matcher source).outcome = .error halt ∨
        (parse { builder := listing, stopAtFirst } matcher source).outcome = .error halt) →
      halt.WellPlaced (Text.lines source) ∧
      ((∀ l ∈ Text.lines source, Line.isStrayHeader l = false) →
        ∀ es, Stream.errorsOf halt = .ok es → ∀ e ∈ es, e.place = e.stamp)) ∧
    ∀ options message uri, Stream.field "uri" message = .ok uri →
      Stream.field "data" message = .ok (.str source) → ∀ ms,
      (Stream.respond { options, parser := { builder, stopAtFirst }, matcher } message).1 = .ok ms →
      ∀ uri' e, .attachment uri' e ∈ ms →
        (e.Kept (Text.lines source) ∨ e.Raised (Text.lines source)) ∧
        ((Message.attachment uri' e).toJson.get? "source").bind (Json.get? "start") =
          some (.object [("line", .int e.place.line), ("column", .int (e.place.column.getD 0))]) ∧
        (Message.attachment uri' e).toJson.get? "data" =
          some (.str (e.stamp.stamp ++ e.cause.message)) := by
  have hplaced : ∀ halt, ((parse { builder, stopAtFirst } matcher source).outcome = .error halt ∨
      (parse { builder := listing, stopAtFirst } matcher source).outcome = .error halt) →
        halt.WellPlaced (Text.lines source) := by
    rintro halt (h | h)
    · exact wellPlaced (DocumentBuilder.cites _) hmatcher rfl h
    · exact wellPlaced (Listing.cites _) hmatcher rfl h
  refine ⟨fun halt h => ⟨hplaced halt h, fun hls es hes e he => ?_⟩, ?_⟩
  · rcases (hplaced halt h).of_mem hes he with hkept | hraised
    · exact hkept.place_eq_stamp hls
    · exact hraised.place
  · intro options message uri huri hdata ms hms uri' e he
    obtain ⟨_, halt, es, houtcome, hes, he⟩ := Stream.of_mem_respond huri hdata hms he
    refine ⟨(hplaced halt (.inl houtcome)).of_mem hes he, ?_, ?_⟩
    · rfl
    · rfl

/-- A header that is not indented, a line among tags, a table that is not even, and an early end. -/
def misplacedSource : Text :=
  "#language:no-such\nFeature:\n  Scenario:\n   * a\n    |b|\n     |c|d|\n @e\n  f\n".toList

def misplacedErrors : List ParseError :=
  [.placed ⟨1, some 1⟩ (.unsupportedLanguage "no-such".toList), .placed ⟨6, some 6⟩ .unevenTable,
    .placed ⟨8, some 3⟩
      (.unexpectedToken (ParseError.expectedNames State.scenarioTags.expected) "f".toList),
    .placed ⟨9, some 0⟩ (.unexpectedEnd (ParseError.expectedNames State.scenarioTags.expected))]

theorem errors_stand_where_printed_misplacedSource :
    Dialect.english ∈ Dialect.table ∧
      (parse { builder := ({} : DocumentBuilder) } (.new .plain .english)
        misplacedSource).outcome = .error (.errors misplacedErrors) ∧
      ParseError.Filed (Text.lines misplacedSource) misplacedErrors ∧
      (∀ l ∈ Text.lines misplacedSource, Line.isStrayHeader l = false) ∧
      ∀ e ∈ misplacedErrors, e.place = e.stamp := by
  have henglish : Dialect.english ∈ Dialect.table := by decide
  have houtcome : (parse { builder := ({} : DocumentBuilder) } (.new .plain .english)
      misplacedSource).outcome = .error (.errors misplacedErrors) := by decide +kernel
  have hstray : ∀ l ∈ Text.lines misplacedSource, Line.isStrayHeader l = false := by decide +kernel
  obtain ⟨hfiled, hplaces⟩ := (errors_stand_where_printed false (.new .plain .english) henglish
    misplacedSource {} {}).1 (.errors misplacedErrors) (.inl houtcome)
  exact ⟨henglish, houtcome, hfiled, hstray, hplaces hstray misplacedErrors rfl⟩

/-- An error about an indented header is printed where the header stands and reported elsewhere. -/
theorem indented_header_reported_elsewhere :
    (parse { builder := ({} : DocumentBuilder) } (.new .plain .english)
      "  #language:no-such\n".toList).outcome =
        .error (.errors [{ cause := .unsupportedLanguage "no-such".toList, stamp := ⟨1, some 3⟩,
                           place := ⟨1, some 1⟩ }]) := by
  decide +kernel

end Parser

end FeatureFile
