import FeatureFile.Proofs.Upcoming
import FeatureFile.Proofs.Words

/-!
# A line of every kind

For every kind of token there is an English line that is meant to be read as that kind, its sample,
and a word of kinds becomes a source by writing the samples below each other. Whether a
parse takes such a source as it was meant is a question of what else a sample could be read as. The
answer is short: every line can be read as part of a description, and a language header also as a
comment (`Matcher.ask_sample`). All of it is found by evaluating the matcher on the samples.
-/

namespace FeatureFile

namespace TokenKind

theorem mem_all (k : TokenKind) : k ∈ all := by
  cases k <;> decide

/-- A line of the kind in English, without its line feed. The end of the input is no line. -/
def sample : TokenKind → Option Text
  | eof => none
  | empty => some "".toList
  | comment => some "#".toList
  | tagLine => some "@a".toList
  | featureLine => some "Feature:".toList
  | backgroundLine => some "Background:".toList
  | scenarioLine => some "Scenario:".toList
  | scenarioOutlineLine => some "Scenario Outline:".toList
  | examplesLine => some "Examples:".toList
  | stepLine => some "* a".toList
  | docStringSeparator => some "\"\"\"".toList
  | tableRow => some "|a|".toList
  | language => some "#language:en".toList
  | other => some "a".toList

/-- The sample as a line of a source. -/
def line? (k : TokenKind) : Option Line := k.sample.map (· ++ ['\n'])

theorem line?_eq_none (k : TokenKind) : k.line? = none ↔ k = eof := by
  cases k <;> simp [line?, sample]

theorem isEnd_of_line {k : TokenKind} {t : Token} (ht : t.line = k.line?) :
    t.isEnd = true ↔ k = eof := by
  rw [Token.isEnd, ht, Option.isNone_iff_eq_none, line?_eq_none]

theorem newline_not_mem_sample (k : TokenKind) : ∀ t ∈ k.sample, '\n' ∉ t := by
  have hall : ∀ k ∈ all, ∀ t ∈ k.sample, '\n' ∉ t := by decide +kernel
  exact hall k k.mem_all

/-- What the sample of a kind may be read as. -/
def looksLike (k kind : TokenKind) : Bool :=
  kind = k || kind = other || (k = language && kind = comment)

/-- What the sample of a kind is to someone who looks for examples. -/
def glance : TokenKind → Glance
  | examplesLine => .found
  | empty | comment | tagLine | language => .passed
  | _ => .blocked

end TokenKind

/-- The answer that a token of the kind is one, that its row has one cell, and that `next` is the
matcher behind it. -/
def Verdict.Affirms (k : TokenKind) (next : Matcher) : Verdict → Prop
  | .yes reading m => m = next ∧ (k = .tableRow → reading.items.length = 1)
  | _ => False

instance (k : TokenKind) (next : Matcher) (v : Verdict) : Decidable (v.Affirms k next) :=
  match v with
  | .yes _ _ => inferInstanceAs (Decidable (_ ∧ _))
  | .no | .unsupported _ | .broken _ => inferInstanceAs (Decidable False)

namespace Matcher

/-- The matcher of a parse in English, inside a doc string or outside. -/
def english (inside : Bool) : Matcher :=
  if inside then (new .plain .english).enter .quotes 0 else new .plain .english

variable {k : TokenKind} {t : Token}

/-- A sample is read as what it looks like, or not at all. -/
theorem ask_sample (inside : Bool) (kind : TokenKind) (ht : t.line = k.line?) :
    (english inside).ask [] kind t = .no ∨
      ((∃ reading next, (english inside).ask [] kind t = .yes reading next) ∧
        k.looksLike kind = true) := by
  have hall : ∀ inside : Bool, ∀ k ∈ TokenKind.all, ∀ kind ∈ TokenKind.all,
      (english inside).ask [] kind { number := 0, line := k.line? } = .no ∨
        (((english inside).ask [] kind { number := 0, line := k.line? }).isYes = true ∧
          k.looksLike kind = true) := by
    decide +kernel
  have hsame : (english inside).ask [] kind t =
      (english inside).ask [] kind { number := 0, line := k.line? } := ask_congr ht
  rw [hsame]
  refine (hall inside k k.mem_all kind kind.mem_all).imp_right fun ⟨hyes, hlike⟩ => ⟨?_, hlike⟩
  exact Verdict.isYes_iff.mp hyes

/-- A sample is read as what it is meant to be. -/
theorem ask_sample_affirms (inside : Bool) (ht : t.line = k.line?) :
    ((english inside).ask [] k t).Affirms k (english (inside != (k == .docStringSeparator))) := by
  have hall : ∀ inside : Bool, ∀ k ∈ TokenKind.all,
      ((english inside).ask [] k { number := 0, line := k.line? }).Affirms k
        (english (inside != (k == .docStringSeparator))) := by
    decide +kernel
  have hsame : (english inside).ask [] k t =
      (english inside).ask [] k { number := 0, line := k.line? } := ask_congr ht
  rw [hsame]
  exact hall inside k k.mem_all

theorem lookForExamples_sample (ht : t.line = k.line?) :
    ((english false).lookForExamples [] t).1 = k.glance := by
  have hall : ∀ k ∈ TokenKind.all,
      ((english false).lookForExamples [] { number := 0, line := k.line? }).1 = k.glance := by
    decide +kernel
  rw [lookForExamples_congr t { number := 0, line := k.line? } ht]
  exact hall k k.mem_all

end Matcher

/-! ## Sources -/

namespace Text

theorem lines_append {body rest : Text} (h : '\n' ∉ body) :
    lines (body ++ '\n' :: rest) = (body ++ ['\n']) :: lines rest := by
  induction body with
  | nil => rfl
  | cons c body ih =>
      have hc : c ≠ '\n' := fun heq => h (heq ▸ List.mem_cons_self)
      rw [List.cons_append, lines, if_neg hc, ih fun hmem => h (List.mem_cons_of_mem _ hmem)]
      rfl

end Text

/-- The samples of a word below each other. -/
def Grammar.source (w : List TokenKind) : Text := (w.filterMap TokenKind.line?).flatten

theorem Grammar.lines_source (w : List TokenKind) :
    Text.lines (source w) = w.filterMap TokenKind.line? := by
  induction w with
  | nil => rfl
  | cons k w ih =>
      cases hk : k.sample with
      | none =>
          have hline : k.line? = none := by rw [TokenKind.line?, hk]; rfl
          rw [source, List.filterMap_cons_none hline]
          exact ih
      | some body =>
          have hline : k.line? = some (body ++ ['\n']) := by rw [TokenKind.line?, hk]; rfl
          rw [source, List.filterMap_cons_some hline, List.flatten_cons, List.append_assoc,
            List.singleton_append, Text.lines_append (k.newline_not_mem_sample body hk)]
          exact congrArg _ ih

namespace State

/-- A word that leads to the last state ends with the end of the input and holds it nowhere else. -/
theorem map_line_of_reads {w : List TokenKind} {s : State} (hs : s ≠ .finished)
    (h : s.reads w = true) :
    w.map TokenKind.line? = (w.filterMap TokenKind.line?).map some ++ [none] := by
  induction w generalizing s with
  | nil => exact absurd (decide_eq_true_eq.mp h) hs
  | cons k w ih =>
      obtain ⟨a, ha, rfl, hw⟩ := reads_cons.mp h
      cases hk : a.kind.line? with
      | none =>
          have hnext : a.next = .finished :=
            (s.next_eq_finished a ha).mpr ((TokenKind.line?_eq_none _).mp hk)
          rw [hnext] at hw
          cases w with
          | nil => rw [List.map_cons, hk, List.filterMap_cons_none hk]; rfl
          | cons k w => cases hw
      | some l =>
          have hnext : a.next ≠ .finished := by
            rw [ne_eq, s.next_eq_finished a ha, ← TokenKind.line?_eq_none, hk]
            exact Option.some_ne_none l
          rw [List.map_cons, hk, List.filterMap_cons_some hk, ih hnext hw]
          rfl

/-- From tags on, a word goes on among them, or says whose tags they are. -/
theorem glance_of_tags (s : State) : s = .scenarioTags ∨ s = .examplesTags →
    ∀ a ∈ s.moves, a.kind ≠ .eof ∧ ((a.kind.glance = .passed ∧ a.next = s) ∨
      (a.kind.glance = .found ∧ s = .examplesTags) ∨
      (a.kind.glance = .blocked ∧ s = .scenarioTags)) := by
  revert s
  exact State.forall_of_all (by decide)

/-- A look at a word that goes on from tags finds examples if and only if it is a word of tags of
examples. -/
theorem sees_of_reads {w : List TokenKind} {s : State} {ts : List Token}
    (hs : s = .scenarioTags ∨ s = .examplesTags) (h : s.reads w = true)
    (hts : ts.map Token.line = w.map TokenKind.line?) :
    Reader.sees ((Matcher.english false).lookForExamples []) ts = true ↔ s = .examplesTags := by
  induction w generalizing ts with
  | nil =>
      have hfinished := decide_eq_true_eq.mp h
      rcases hs with rfl | rfl <;> cases hfinished
  | cons k w ih =>
      cases ts with
      | nil => cases hts
      | cons t ts =>
          obtain ⟨ht, hrest⟩ := List.cons.inj hts
          obtain ⟨a, ha, rfl, hw⟩ := reads_cons.mp h
          obtain ⟨heof, hglance⟩ := s.glance_of_tags hs a ha
          have hline : t.isEnd = false := by
            rw [Bool.eq_false_iff, ne_eq, TokenKind.isEnd_of_line ht]
            exact heof
          rw [Reader.sees, hline, Matcher.lookForExamples_sample ht]
          -- Only a sample that one looks past leaves the question to the rest of the word.
          rcases hglance with ⟨hk, hnext⟩ | ⟨hk, rfl⟩ | ⟨hk, rfl⟩
          · rw [hnext] at hw
            rw [hk]
            exact ih hw hrest
          · rw [hk]
            exact iff_of_true rfl rfl
          · rw [hk]
            exact iff_of_false Bool.false_ne_true State.noConfusion

end State

end FeatureFile
