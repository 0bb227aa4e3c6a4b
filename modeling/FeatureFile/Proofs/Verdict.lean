import FeatureFile.Trial

/-!
# What an answer of a matcher tells

A matcher is asked whether a token can be read as one of some kind, and everything that is said
about a run rests on a few facts about its answers. A reading is of the kind that was asked for.
The matcher it leaves behind is the one that was asked, with two exceptions: a language header
changes the dialect to one of the table, and a separator opens or closes a doc string. An answer
depends on the line of the token alone, not on how the token was read before.

The end of the input can be read as nothing but the end, so the kinds that would have to look into
a line are never asked there. That leaves one question without an answer: a table row that ends
inside an escape.
-/

namespace FeatureFile

namespace Token

/-- The token as it was made, before any reading. -/
def bare (t : Token) : Token := { t with reading := none }

@[simp] theorem bare_number (t : Token) : t.bare.number = t.number := rfl

@[simp] theorem bare_line (t : Token) : t.bare.line = t.line := rfl

@[simp] theorem isEnd_bare (t : Token) : t.bare.isEnd = t.isEnd := rfl

@[simp] theorem withReading_number (t : Token) (r : Reading) :
    (t.withReading r).number = t.number := rfl

@[simp] theorem withReading_line (t : Token) (r : Reading) : (t.withReading r).line = t.line := rfl

@[simp] theorem withReading_reading (t : Token) (r : Reading) :
    (t.withReading r).reading = some r := rfl

@[simp] theorem isEnd_withReading (t : Token) (r : Reading) :
    (t.withReading r).isEnd = t.isEnd := rfl

@[simp] theorem bare_withReading (t : Token) (r : Reading) : (t.withReading r).bare = t.bare := rfl

theorem line_eq_of_bare_eq {t u : Token} (h : t.bare = u.bare) : t.line = u.line := by
  rw [← bare_line t, h, bare_line]

theorem withReading_eq_of_bare_eq {t u : Token} (h : t.bare = u.bare) (r : Reading) :
    t.withReading r = u.withReading r := by
  have hnumber : t.number = u.number := by rw [← bare_number t, h, bare_number]
  unfold withReading
  rw [hnumber, line_eq_of_bare_eq h]

theorem isEnd_eq_of_bare_eq {t u : Token} (h : t.bare = u.bare) : t.isEnd = u.isEnd := by
  rw [← isEnd_bare t, h, isEnd_bare]

end Token

/-- Is the answer a reading? -/
def Verdict.isYes : Verdict → Bool
  | .yes _ _ => true
  | _ => false

theorem Verdict.isYes_iff {v : Verdict} :
    v.isYes = true ↔ ∃ reading next, v = .yes reading next := by
  cases v <;> simp [isYes]

namespace Matcher

variable {m next : Matcher} {hidden : List TokenKind} {kind : TokenKind} {l : Line} {t : Token}
  {reading : Reading}

/-- The line starts with the separator that it opens a doc string with. -/
theorem fenceOf_eq_some {fence : Fence} (h : fenceOf l = some fence) :
    l.startsWith fence.text = true := by
  unfold fenceOf at h
  split at h
  · cases h
    assumption
  · split at h
    · cases h
      assumption
    · cases h

theorem docString_eq_some {d : OpenDocString} :
    m.docString = some d ↔ m.separator = some d.fence ∧ m.indentToRemove = d.indent := by
  obtain ⟨fence, indent⟩ := d
  simp only [docString, Option.map_eq_some_iff, OpenDocString.mk.injEq]
  constructor
  · rintro ⟨_, hfence, rfl, hindent⟩
    exact ⟨hfence, hindent⟩
  · rintro ⟨hfence, hindent⟩
    exact ⟨fence, hfence, rfl, hindent⟩

/-- Outside of doc strings lines are left as they are. -/
theorem contentOf_of_outside (h : m.separator = none) (l : Line) : m.contentOf l = l := by
  rw [contentOf, h, m.outside h, Line.dedent, if_neg (Nat.not_lt_zero _)]
  rfl

theorem leave_of_outside (h : m.separator = none) : m.leave = m := by
  obtain ⟨style, default, dialect, separator, indent, outside⟩ := m
  cases h
  cases outside rfl
  rfl

theorem languageOf_of_not_hash (h : l.startsWith "#".toList = false) : languageOf l = none := by
  rw [languageOf, behind, if_neg]
  · rfl
  · rw [show "#".toList.isPrefixOf (Text.trimLeft l) = false from h]
    exact Bool.false_ne_true

theorem hash_of_languageOf {name : Text} (h : languageOf l = some name) :
    l.startsWith "#".toList = true := by
  cases hhash : l.startsWith "#".toList with
  | true => rfl
  | false =>
      rw [languageOf_of_not_hash hhash] at h
      cases h

/-- What a reading leaves of the matcher: a header changes the dialect, a separator opens or closes
a doc string, and nothing else changes anything. -/
inductive Follows (m : Matcher) : TokenKind → Matcher → Prop where
  | same (kind : TokenKind) (hl : kind ≠ .language) (hs : kind ≠ .docStringSeparator) :
      Follows m kind m
  | dialect (d : Dialect) (hd : d ∈ Dialect.table) : Follows m .language { m with dialect := d }
  | opens (fence : Fence) (indent : Nat) (hm : m.separator = none) :
      Follows m .docStringSeparator (m.enter fence indent)
  | closes (fence : Fence) (hm : m.separator = some fence) :
      Follows m .docStringSeparator m.leave

theorem Follows.dialect_mem (h : Follows m kind next) (hm : m.dialect ∈ Dialect.table) :
    next.dialect ∈ Dialect.table := by
  cases h with
  | dialect d hd => exact hd
  | same _ _ _ => exact hm
  | opens _ _ _ => exact hm
  | closes _ _ => exact hm

theorem Follows.dialect_eq (h : Follows m kind next) (hkind : kind ≠ .language) :
    next.dialect = m.dialect := by
  cases h with
  | dialect _ _ => exact absurd rfl hkind
  | same _ _ _ => rfl
  | opens _ _ _ => rfl
  | closes _ _ => rfl

theorem Follows.style_eq (h : Follows m kind next) : next.style = m.style := by
  cases h <;> rfl

theorem Follows.default_eq (h : Follows m kind next) : next.default = m.default := by
  cases h <;> rfl

theorem Follows.separator_eq (h : Follows m kind next) (hk : kind ≠ .docStringSeparator) :
    next.separator = m.separator := by
  cases h with
  | same _ _ _ => rfl
  | dialect _ _ => rfl
  | opens _ _ _ => exact absurd rfl hk
  | closes _ _ => exact absurd rfl hk

theorem Follows.docString_eq (h : Follows m kind next) (hk : kind ≠ .docStringSeparator) :
    next.docString = m.docString := by
  cases h with
  | same _ _ _ => rfl
  | dialect _ _ => rfl
  | opens _ _ _ => exact absurd rfl hk
  | closes _ _ => exact absurd rfl hk

theorem Follows.eq (h : Follows m kind next) (hl : kind ≠ .language)
    (hs : kind ≠ .docStringSeparator) : next = m := by
  cases h with
  | same _ _ _ => rfl
  | dialect _ _ => exact absurd rfl hl
  | opens _ _ _ => exact absurd rfl hs
  | closes _ _ => exact absurd rfl hs

theorem Follows.separator_isSome (h : Follows m .docStringSeparator next) :
    next.separator.isSome = !m.separator.isSome := by
  cases h with
  | same _ _ hs => exact absurd rfl hs
  | opens fence indent hm => simp [enter, hm]
  | closes fence hm => simp [leave, hm]

theorem readTitle_kind {keywords : List Text} (h : m.readTitle kind keywords l = some reading) :
    reading.kind = kind := by
  obtain ⟨keyword, _, rfl⟩ := Option.map_eq_some_iff.mp h
  rfl

theorem readStep_kind (h : m.readStep l = some reading) : reading.kind = .stepLine := by
  obtain ⟨keyword, _, rfl⟩ := Option.map_eq_some_iff.mp h
  rfl

theorem verdictOf_yes {o : Option Reading} (h : m.verdictOf o = .yes reading next) :
    o = some reading ∧ next = m := by
  cases o with
  | none => cases h
  | some r => cases h; exact ⟨rfl, rfl⟩

theorem speak_eq_some {name : Text} (h : m.speak name = some next) :
    ∃ d ∈ Dialect.table, next = { m with dialect := d } := by
  obtain ⟨d, hd, rfl⟩ := Option.map_eq_some_iff.mp h
  exact ⟨d, List.mem_of_find?_eq_some hd, rfl⟩

theorem readLanguage_yes (h : m.readLanguage l = .yes reading next) :
    reading.kind = .language ∧ Follows m .language next := by
  unfold readLanguage at h
  split at h
  · cases h
  · split at h
    · cases h
    · rename_i hspeak
      obtain ⟨d, hd, rfl⟩ := speak_eq_some hspeak
      cases h
      exact ⟨rfl, .dialect d hd⟩

theorem readSeparator_yes (h : m.readSeparator l = .yes reading next) :
    reading.kind = .docStringSeparator ∧ Follows m .docStringSeparator next := by
  unfold readSeparator at h
  split at h
  · rename_i hm
    split at h
    · cases h
    · cases h
      exact ⟨rfl, .opens _ _ hm⟩
  · rename_i fence hm
    split at h
    · cases h
      exact ⟨rfl, .closes fence hm⟩
    · cases h

/-- The separator that opens a doc string has a text behind it, empty or not. -/
theorem readSeparator_text (hm : m.separator = none)
    (h : m.readSeparator l = .yes reading next) : reading.text.isSome := by
  unfold readSeparator at h
  rw [hm] at h
  simp only [] at h
  split at h
  · cases h
  · cases h
    rfl

theorem readLine_yes (h : m.readLine kind l = .yes reading next) :
    reading.kind = kind ∧ Follows m kind next := by
  cases kind <;> simp only [readLine] at h
  case eof => cases h
  case empty | comment | tagLine =>
    split at h
    · cases h
      exact ⟨rfl, .same _ (by decide) (by decide)⟩
    · cases h
  case featureLine | backgroundLine | scenarioLine | scenarioOutlineLine | examplesLine =>
    obtain ⟨ho, rfl⟩ := verdictOf_yes h
    exact ⟨readTitle_kind ho, .same _ (by decide) (by decide)⟩
  case stepLine =>
    obtain ⟨ho, rfl⟩ := verdictOf_yes h
    exact ⟨readStep_kind ho, .same _ (by decide) (by decide)⟩
  case docStringSeparator => exact readSeparator_yes h
  case tableRow =>
    split at h
    · split at h
      · cases h
      · cases h
        exact ⟨rfl, .same _ (by decide) (by decide)⟩
    · cases h
  case language => exact readLanguage_yes h
  case other =>
    cases h
    exact ⟨rfl, .same _ (by decide) (by decide)⟩

theorem readEnd_yes (h : m.readEnd kind = .yes reading next) :
    reading.kind = kind ∧ kind = .eof ∧ next = m := by
  cases kind <;> simp only [readEnd] at h <;> cases h
  exact ⟨rfl, rfl, rfl⟩

theorem verdictOf_cases (m : Matcher) (o : Option Reading) :
    m.verdictOf o = .no ∨ ∃ reading next, m.verdictOf o = .yes reading next := by
  cases o with
  | none => exact .inl rfl
  | some reading => exact .inr ⟨reading, m, rfl⟩

theorem readSeparator_cases (m : Matcher) (l : Line) :
    m.readSeparator l = .no ∨ ∃ reading next, m.readSeparator l = .yes reading next := by
  unfold readSeparator
  split <;> split
  · exact .inl rfl
  · exact .inr ⟨_, _, rfl⟩
  · exact .inr ⟨_, _, rfl⟩
  · exact .inl rfl

/-- A line is of some kind or it is not, apart from a header whose language is not supported and from
a table row without cells. -/
theorem readLine_cases (m : Matcher) (kind : TokenKind) (l : Line) :
    (m.readLine kind l = .no ∨ ∃ reading next, m.readLine kind l = .yes reading next) ∨
      (kind = .language ∧ ∃ reading, m.readLine kind l = .unsupported reading) ∨
      (m.readLine kind l = .broken .danglingEscape ∧ l.startsWith "|".toList = true ∧
        l.cells = none) := by
  cases kind <;> rw [readLine]
  case eof => exact .inl (.inl rfl)
  case other => exact .inl (.inr ⟨_, _, rfl⟩)
  case empty | comment | tagLine =>
    split
    · exact .inl (.inr ⟨_, _, rfl⟩)
    · exact .inl (.inl rfl)
  case featureLine | backgroundLine | scenarioLine | scenarioOutlineLine | examplesLine
      | stepLine =>
    exact .inl (verdictOf_cases m _)
  case docStringSeparator => exact .inl (readSeparator_cases m l)
  case tableRow =>
    split
    · next hpipe =>
        split
        · next hcells => exact .inr (.inr ⟨rfl, hpipe, hcells⟩)
        · exact .inl (.inr ⟨_, _, rfl⟩)
    · exact .inl (.inl rfl)
  case language =>
    unfold readLanguage
    split
    · exact .inl (.inl rfl)
    · dsimp only
      split
      · exact .inr (.inl ⟨rfl, _, rfl⟩)
      · exact .inl (.inr ⟨_, _, rfl⟩)

/-- A table row without cells is the one line a matcher has no answer for. -/
theorem readLine_broken {fault : Fault} (h : m.readLine kind l = .broken fault) :
    fault = .danglingEscape ∧ l.startsWith "|".toList = true ∧ l.cells = none := by
  rcases m.readLine_cases kind l with (hno | ⟨_, _, hyes⟩) | ⟨_, _, hheader⟩ | ⟨hbroken, hrow⟩
  · cases h.symm.trans hno
  · cases h.symm.trans hyes
  · cases h.symm.trans hheader
  · cases h.symm.trans hbroken
    exact ⟨rfl, hrow⟩

theorem readLine_unsupported (h : m.readLine kind l = .unsupported reading) :
    kind = .language := by
  rcases m.readLine_cases kind l with (hno | ⟨_, _, hyes⟩) | ⟨hkind, _⟩ | ⟨hbroken, _⟩
  · cases h.symm.trans hno
  · cases h.symm.trans hyes
  · exact hkind
  · cases h.symm.trans hbroken

/-! ## Asking

`ask` hides kinds and keeps the end of the input away from questions about lines; otherwise its
answers are those of `readLine`. -/

theorem ask_withReading (r : Reading) :
    m.ask hidden kind (t.withReading r) = m.ask hidden kind t := rfl

theorem ask_congr {u : Token} (h : t.line = u.line) :
    m.ask hidden kind t = m.ask hidden kind u := by
  obtain ⟨_, _, _⟩ := t
  obtain ⟨_, _, _⟩ := u
  cases h
  rfl

theorem ask_of_line (ht : t.line = some l) (hh : hidden.contains kind = false) :
    m.ask hidden kind t = m.readLine kind l := by
  unfold ask read Token.isEnd
  rw [ht, hh]
  rfl

theorem ask_cases (m : Matcher) (hidden : List TokenKind) (kind : TokenKind) (t : Token) :
    m.ask hidden kind t = .no ∨
      (t.line = none ∧ kind = .eof ∧ m.ask hidden kind t = m.readEnd kind) ∨
      ∃ l, t.line = some l ∧ m.ask hidden kind t = m.readLine kind l := by
  unfold ask
  split
  · exact .inl rfl
  · rename_i hcond
    rw [Bool.not_eq_true, Bool.or_eq_false_iff] at hcond
    cases hl : t.line with
    | none =>
        refine .inr (.inl ⟨rfl, ?_, by rw [read, hl]⟩)
        simpa [Token.isEnd, hl] using hcond.2
    | some l => exact .inr (.inr ⟨l, rfl, by rw [read, hl]⟩)

theorem ask_yes (h : m.ask hidden kind t = .yes reading next) :
    reading.kind = kind ∧ Follows m kind next := by
  rcases ask_cases m hidden kind t with hno | ⟨_, rfl, hend⟩ | ⟨l, _, hline⟩
  · rw [hno] at h
    cases h
  · rw [hend] at h
    obtain ⟨hk, _, rfl⟩ := readEnd_yes h
    exact ⟨hk, .same _ (by decide) (by decide)⟩
  · rw [hline] at h
    exact readLine_yes h

/-- The end of the input is read as the end, and a line is not. -/
theorem ask_yes_isEnd (h : m.ask hidden kind t = .yes reading next) :
    t.isEnd = true ↔ kind = .eof := by
  rcases ask_cases m hidden kind t with hno | ⟨hl, rfl, _⟩ | ⟨l, hl, hline⟩
  · rw [hno] at h
    cases h
  · simp [Token.isEnd, hl]
  · rw [hline] at h
    constructor
    · intro hend
      simp [Token.isEnd, hl] at hend
    · rintro rfl
      cases h

theorem ask_broken {fault : Fault} (h : m.ask hidden kind t = .broken fault) :
    fault = .danglingEscape ∧
      ∃ l, t.line = some l ∧ l.startsWith "|".toList = true ∧ l.cells = none := by
  rcases ask_cases m hidden kind t with hno | ⟨_, rfl, hend⟩ | ⟨l, hl, hline⟩
  · rw [hno] at h
    cases h
  · rw [hend] at h
    cases h
  · rw [hline] at h
    obtain ⟨hf, hpipe, hcells⟩ := readLine_broken h
    exact ⟨hf, l, hl, hpipe, hcells⟩

theorem ask_unsupported (h : m.ask hidden kind t = .unsupported reading) : kind = .language := by
  rcases ask_cases m hidden kind t with hno | ⟨_, rfl, hend⟩ | ⟨l, _, hline⟩
  · rw [hno] at h
    cases h
  · rw [hend] at h
    cases h
  · rw [hline] at h
    exact readLine_unsupported h

/-- Whether a line belongs to an examples block, as its title, as its tags or as a gap between them,
is always answered, and leaves the matcher alone. -/
theorem ask_keeps (m : Matcher) (hidden : List TokenKind)
    (hkind : kind ∈ [.examplesLine, .empty, .comment, .tagLine]) (t : Token) :
    m.ask hidden kind t = .no ∨ ∃ reading, m.ask hidden kind t = .yes reading m := by
  rcases ask_cases m hidden kind t with hno | ⟨_, rfl, _⟩ | ⟨l, _, hline⟩
  · exact .inl hno
  · exact absurd hkind (by decide)
  · rw [hline]
    simp only [List.mem_cons, List.not_mem_nil, or_false] at hkind
    rcases hkind with rfl | hkind
    · rw [readLine]
      cases m.readTitle .examplesLine m.dialect.examples l with
      | none => exact .inl rfl
      | some reading => exact .inr ⟨reading, rfl⟩
    · rcases hkind with rfl | rfl | rfl
      all_goals
        simp only [readLine]
        split
        · exact .inr ⟨_, rfl⟩
        · exact .inl rfl

theorem ask_tagLine (m : Matcher) (hidden : List TokenKind) (t : Token) :
    m.ask hidden .tagLine t = .no ∨ ∃ reading, m.ask hidden .tagLine t = .yes reading m :=
  ask_keeps m hidden (by decide) t

theorem ask_separator_text (hm : m.separator = none)
    (h : m.ask hidden .docStringSeparator t = .yes reading next) : reading.text.isSome := by
  rcases ask_cases m hidden .docStringSeparator t with hno | ⟨_, hk, _⟩ | ⟨l, _, hline⟩
  · rw [hno] at h
    cases h
  · cases hk
  · rw [hline] at h
    exact readSeparator_text hm h

end Matcher

end FeatureFile
