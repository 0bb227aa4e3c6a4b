import FeatureFile.Proofs.Census
import FeatureFile.Proofs.Following
import FeatureFile.Proofs.Keywords
import FeatureFile.Proofs.SwitchedOff

/-!
# Reading on without the steps that are switched off

A matcher of the plain style takes the line of a step that is switched off for a comment. So it goes
another way through the grammar than a matcher that knows of such steps: the latter is behind a
step, where the former may still be in the head of the block, or behind the table or the doc string
of an earlier step. These are the states of `State.muted`. Unless a table or a doc string follows,
the same tokens may come next there, and they lead to states that belong together again
(`State.muted_kept`, `State.muted_off`).

So the way through a layout and the way through the muted layout run side by side, and if the first
is taken by the one matcher then the second is taken by the other (`Taken.muted`). What comes out is
the document with the steps that are switched off commented out
(`Parser.commented_steps_are_conservative`).
-/

namespace FeatureFile

/-! ## Lines -/

/-- The matcher, in the plain style. -/
def Matcher.plain (m : Matcher) : Matcher := { m with style := .plain }

/-- The verdict, if the matcher is in the plain style. -/
def Verdict.plain : Verdict → Verdict
  | .yes reading next => .yes reading next.plain
  | v => v

namespace Matcher

variable {m : Matcher} {kind : TokenKind} {l : Line} {t : Token} {reading : Reading}

theorem verdictOf_plain (o : Option Reading) : m.plain.verdictOf o = (m.verdictOf o).plain := by
  cases o <;> rfl

theorem readSeparator_plain : m.plain.readSeparator l = (m.readSeparator l).plain := by
  have hdoc : m.plain.separator = m.separator := rfl
  rw [readSeparator, readSeparator, hdoc]
  cases m.separator with
  | none => cases fenceOf l <;> rfl
  | some d =>
      dsimp only
      split <;> rfl

theorem readLanguage_plain : m.plain.readLanguage l = (m.readLanguage l).plain := by
  rw [readLanguage, readLanguage]
  cases languageOf l with
  | none => rfl
  | some name =>
      dsimp only [speak]
      cases Dialect.byName name <;> rfl

/-- The two styles differ in steps alone. -/
theorem readLine_plain (hkind : kind ≠ .stepLine) :
    m.plain.readLine kind l = (m.readLine kind l).plain := by
  cases kind with
  | stepLine => exact absurd rfl hkind
  | eof | other => rfl
  | empty | comment | tagLine =>
      rw [readLine, readLine]
      split <;> rfl
  | featureLine | backgroundLine | scenarioLine | scenarioOutlineLine | examplesLine =>
      exact verdictOf_plain _
  | docStringSeparator => exact readSeparator_plain
  | language => exact readLanguage_plain
  | tableRow =>
      rw [readLine, readLine]
      split
      · cases l.cells <;> rfl
      · rfl

theorem ask_plain (hkind : kind ≠ .stepLine) :
    m.plain.ask [] kind t = (m.ask [] kind t).plain := by
  rw [ask, ask]
  split
  · rfl
  · rw [read, read]
    cases t.line with
    | none => cases kind <;> rfl
    | some l => exact readLine_plain hkind

/-! ## Steps -/

theorem stepMark_of_not_hash (h : l.startsWith "#".toList = false) : m.stepMark l = [] := by
  have hquery : l.startsWith "#?".toList = false := by
    rw [Bool.eq_false_iff, ne_eq, Line.startsWith, List.isPrefixOf_iff_prefix] at h ⊢
    exact fun hfront => h (List.IsPrefix.trans (by decide) hfront)
  rw [stepMark, hquery, h]
  cases m.style <;> rfl

/-- Without a hash mark in front, a step is the same in both styles. -/
theorem readStep_plain (h : l.startsWith "#".toList = false) :
    m.plain.readStep l = m.readStep l := by
  rw [readStep, readStep, stepMark_of_not_hash h, stepMark_of_not_hash h]
  rfl

/-- In the plain style, no step has a hash mark in front. -/
theorem readStep_plain_of_hash (hm : m.dialect ∈ Dialect.table)
    (h : l.startsWith "#".toList = true) : m.plain.readStep l = none := by
  have hmark : m.plain.stepMark l = [] := rfl
  rw [readStep_eq_none_iff, hmark]
  intro word hword
  have hmem : word ∈ m.dialect.keywords := List.mem_append_right _ hword
  have htame := Dialect.head_ne_hash hm hmem
  rw [List.length_nil, List.drop_zero, Line.startsWith_trimmed]
  cases hc : word.head? with
  | none => exact absurd (List.head?_eq_none_iff.mp hc) (Dialect.keyword_ne_nil hm hmem)
  | some c =>
      rw [hc] at htame
      exact Line.startsWith_of_head_ne (Line.head_of_startsWith h) hc fun heq =>
        htame (congrArg some heq)

/-- A step is switched off if and only if its line starts with a hash mark. -/
theorem hash_iff_of_readStep (hm : m.dialect ∈ Dialect.table) (hstyle : m.style = .commentedSteps)
    (h : m.readStep l = some reading) :
    l.startsWith "#".toList = true ↔ (reading.keyword.getD []).head? = some '#' := by
  rw [readStep_eq] at h
  obtain ⟨word, hfind, rfl⟩ := Option.map_eq_some_iff.mp h
  have hmem : word ∈ m.dialect.keywords := List.mem_append_right _ (List.mem_of_find?_eq_some hfind)
  rw [Option.getD_some]
  cases hhash : l.startsWith "#".toList with
  | true =>
      refine iff_of_true rfl ?_
      rw [stepMark, hstyle, hhash]
      dsimp only
      split <;> rfl
  | false =>
      rw [stepMark_of_not_hash hhash, List.nil_append]
      exact iff_of_false Bool.false_ne_true (Dialect.head_ne_hash hm hmem)

/-- What is no step where steps may be switched off is no step in the plain style either. -/
theorem ask_plain_of_no (hm : m.dialect ∈ Dialect.table) (h : m.ask [] kind t = .no) :
    m.plain.ask [] kind t = .no := by
  by_cases hkind : kind = .stepLine
  · subst hkind
    rcases ask_cases m.plain [] .stepLine t with hno | ⟨_, heof, _⟩ | ⟨l, hl, hline⟩
    · exact hno
    · cases heof
    · have hstep : m.readLine .stepLine l = .no := (ask_of_line hl rfl).symm.trans h
      rw [hline]
      cases hhash : l.startsWith "#".toList with
      | true => exact verdictOf_eq_no.mpr (readStep_plain_of_hash hm hhash)
      | false =>
          refine verdictOf_eq_no.mpr ?_
          rw [readStep_plain hhash]
          exact verdictOf_eq_no.mp hstep
  · rw [ask_plain hkind, h]
    rfl

end Matcher

/-! ## States -/

namespace State

/-- Where someone may be who takes steps that are switched off for comments. -/
def muted : State → List State
  | step o => [step o, block o.block .commented, dataTable o, docStringEnd o]
  | s => [s]

/-- A token leads from states that belong together to such states again, unless it is a line of tags
that are taken for tags of different things. What is tried before it in the one is tried before it
in the other, apart from a comment. -/
theorem muted_kept (s : State) : ∀ s' ∈ s.muted, ∀ a ∈ s.moves, ∀ b ∈ s'.moves, a.kind = b.kind →
    (b.next ∈ a.next.muted ∨ (a.next = .examplesTags ∧ b.next = .scenarioTags) ∨
      (a.next = .scenarioTags ∧ b.next = .examplesTags)) ∧
    ∀ c ∈ s'.moves, s'.rank c.kind < s'.rank b.kind → s.rank c.kind < s.rank a.kind ∨
      (c.kind = .comment ∧ a.kind ∉ [TokenKind.eof, .comment, .stepLine, .language, .other]) := by
  revert s
  exact forall_of_all (by decide +kernel)

/-- So do the line of a step in the one and a comment in the other. -/
theorem muted_off (s : State) : ∀ s' ∈ s.muted, ∀ a ∈ s.moves, a.kind = .stepLine → ∀ b ∈ s'.moves,
    b.kind = .comment → b.next ∈ a.next.muted ∧
      ∀ c ∈ s'.moves, s'.rank c.kind < s'.rank b.kind →
        c.kind ∉ [TokenKind.comment, .language, .other] := by
  revert s
  exact forall_of_all (by decide +kernel)

end State

/-! ## Strides -/

namespace Stride.Taken

variable {m next : Matcher} {x : Stride} {s : State} {b : Move}

/-- The line of a step starts with a hash mark if and only if the step is switched off. -/
theorem readStep (h : x.Taken m next) (hkind : x.move.kind = .stepLine)
    (hm : m.dialect ∈ Dialect.table) (hstyle : m.style = .commentedSteps) :
    ∃ l reading, x.token.line = some l ∧ x.token.reading = some reading ∧
      m.readStep l = some reading ∧ next = m ∧ x.token.isOff = l.startsWith "#".toList := by
  obtain ⟨l, reading, hl, hreading, hread⟩ := h.readLine (hkind ▸ TokenKind.noConfusion)
  rw [hkind] at hread
  obtain ⟨hstep, hnext⟩ := Matcher.verdictOf_yes hread
  refine ⟨l, reading, hl, hreading, hstep, hnext, ?_⟩
  rw [Bool.eq_iff_iff, Matcher.hash_iff_of_readStep hm hstyle hstep, Token.isOff, h.kind, hkind,
    Node.keywordOf, hreading]
  simp

/-- What is no step switched off is read the same in the plain style. -/
theorem ask_plain (h : x.Taken m next) (hm : m.dialect ∈ Dialect.table)
    (hstyle : m.style = .commentedSteps) (hoff : x.token.isOff = false) :
    ∃ reading, x.token.reading = some reading ∧
      m.plain.ask [] x.move.kind x.token = .yes reading next.plain := by
  obtain ⟨reading, hreading, hask⟩ := h.ask
  refine ⟨reading, hreading, ?_⟩
  by_cases hstep : x.move.kind = .stepLine
  · obtain ⟨l, _, hl, _, _, _, hhash⟩ := h.readStep hstep hm hstyle
    rw [hstep, Matcher.ask_of_line hl rfl] at hask
    rw [hoff] at hhash
    rw [hstep, Matcher.ask_of_line hl rfl, Matcher.readLine, Matcher.readStep_plain hhash.symm,
      Matcher.verdictOf_plain]
    exact congrArg Verdict.plain hask
  · rw [Matcher.ask_plain hstep, hask]
    rfl

/-- Tags, titles and the like are no comments. -/
theorem ask_comment (h : x.Taken m next) (hm : m.dialect ∈ Dialect.table)
    (hkind : x.move.kind ∉ [TokenKind.eof, .comment, .stepLine, .language, .other]) :
    m.ask [] .comment x.token = .no := by
  simp only [List.mem_cons, List.not_mem_nil, or_false, not_or] at hkind
  obtain ⟨l, _, hl, _, hread⟩ := h.readLine hkind.1
  rw [Matcher.ask_of_line hl rfl, Matcher.readLine]
  cases hhash : l.startsWith "#".toList with
  | false => rfl
  | true =>
      rw [Matcher.readLine_of_hash hm hhash (by simp [hkind])] at hread
      cases hread

/-- A token that is no step switched off is taken in the plain style as well, in any state that
belongs to the one where it is taken. -/
theorem kept (h : x.Taken m next) (hm : m.dialect ∈ Dialect.table)
    (hstyle : m.style = .commentedSteps) (hoff : x.token.isOff = false)
    (hx : x.move ∈ x.state.moves) (hs : s ∈ x.state.muted) (hb : b ∈ s.moves)
    (hkind : x.move.kind = b.kind) : Stride.Taken m.plain ⟨s, b, x.token⟩ next.plain := by
  obtain ⟨_, hrank⟩ := x.state.muted_kept s hs x.move hx b hb hkind
  refine ⟨?_, fun kind hlt => ?_⟩
  · have hask := h.ask_plain hm hstyle hoff
    rw [hkind] at hask
    exact hask
  · obtain ⟨c, hc, rfl⟩ := State.exists_move_of_rank_lt hb hlt
    refine Matcher.ask_plain_of_no hm ?_
    rcases hrank c hc hlt with hearlier | ⟨hcomment, hnot⟩
    · exact h.before c.kind hearlier
    · rw [hcomment]
      exact h.ask_comment hm hnot

/-- The line of a step that is switched off is taken for a comment in the plain style. -/
theorem off (h : x.Taken m next) (hm : m.dialect ∈ Dialect.table)
    (hstyle : m.style = .commentedSteps) (hoff : x.token.isOff = true)
    (hx : x.move ∈ x.state.moves) (hs : s ∈ x.state.muted) (hb : b ∈ s.moves)
    (hkind : x.move.kind = .stepLine) (hcomment : b.kind = .comment) :
    Stride.Taken m.plain ⟨s, b, x.token.asComment⟩ next.plain := by
  obtain ⟨_, hrank⟩ := x.state.muted_off s hs x.move hx hkind b hb hcomment
  obtain ⟨l, reading, hl, hreading, hstep, rfl, hhash⟩ := h.readStep hkind hm hstyle
  rw [hoff] at hhash
  have hask : ∀ kind, next.plain.ask [] kind x.token.asComment = next.plain.readLine kind l :=
    fun kind => Matcher.ask_of_line hl rfl
  refine ⟨⟨_, rfl, ?_⟩, fun kind hlt => ?_⟩
  · show next.plain.ask [] b.kind x.token.asComment = _
    rw [hcomment, hask, Matcher.readLine, ← hhash, if_pos rfl, hl, hreading]
    obtain ⟨word, _, rfl⟩ := Option.map_eq_some_iff.mp hstep
    rfl
  · obtain ⟨c, hc, rfl⟩ := State.exists_move_of_rank_lt hb hlt
    have hnot := hrank c hc hlt
    simp only [List.mem_cons, List.not_mem_nil, or_false, not_or] at hnot
    show next.plain.ask [] c.kind x.token.asComment = .no
    rw [hask]
    by_cases hc' : c.kind = .stepLine
    · rw [hc']
      exact Matcher.verdictOf_eq_no.mpr (Matcher.readStep_plain_of_hash hm hhash.symm)
    · exact Matcher.readLine_of_hash hm hhash.symm (by simp [hnot, hc'])

end Stride.Taken

/-! ## Side by side -/

theorem Token.mute_mute (t : Token) : t.mute.mute = t.mute := by
  cases hoff : t.isOff with
  | true => rw [mute_of_isOff hoff, mute_of_not_isOff (isOff_of_kind rfl TokenKind.noConfusion)]
  | false => rw [mute_of_not_isOff hoff, mute_of_not_isOff hoff]

/-- Muting does not change whose tags some tags are. -/
theorem Trail.not_apart {xs ys : List Stride}
    (htokens : ys.map Stride.token = (xs.map Stride.token).map Token.mute) {s s' : State}
    (h : Trail s xs .finished) (h' : Trail s' ys .finished) :
    ¬ ((s = .examplesTags ∧ s' = .scenarioTags) ∨ (s = .scenarioTags ∧ s' = .examplesTags)) := by
  have hkinds : (xs.map Stride.token).map (fun t => t.mute.kind?) =
      (ys.map Stride.token).map fun t => t.mute.kind? := by
    rw [htokens]
    simp only [List.map_map, Function.comp_def, Token.mute_mute]
  have hsame : ∀ t : Token, t.kind? ≠ some .stepLine → t.mute.kind? = t.kind? := by
    intro t ht
    rw [Token.mute_of_not_isOff]
    exact Bool.eq_false_iff.mpr fun hoff => ht (Token.kind_of_isOff hoff)
  rintro (⟨rfl, rfl⟩ | ⟨rfl, rfl⟩)
  · exact not_both h h' hsame hkinds
  · exact not_both h' h hsame hkinds.symm

/-- If a way is taken where steps may be switched off, then its counterpart among muted tokens is
taken in the plain style. -/
theorem Taken.muted {s s' : State} {xs ys : List Stride} {m last : Matcher}
    (htrail : Trail s xs .finished) (htrail' : Trail s' ys .finished) (hs : s' ∈ s.muted)
    (htokens : ys.map Stride.token = (xs.map Stride.token).map Token.mute)
    (h : Taken m xs last) (hm : m.dialect ∈ Dialect.table) (hstyle : m.style = .commentedSteps) :
    Taken m.plain ys last.plain := by
  generalize hlast : State.finished = end' at htrail
  induction htrail generalizing s' ys m with
  | nil s =>
      cases h
      cases ys with
      | nil => exact .nil _
      | cons y ys => cases htokens
  | @cons s _ a t xs ha ht rest ih =>
      subst hlast
      cases htrail' with
      | nil => cases htokens
      | @cons _ _ b u ys hb hu rest' =>
          obtain ⟨hmute, hrest⟩ := List.cons.inj htokens
          change u = t.mute at hmute
          cases h with
          | @cons _ next _ _ _ first later =>
              have hdialect := first.follows.dialect_mem hm
              have hstyle' := first.follows.style_eq.trans hstyle
              cases hoff : t.isOff with
              | true =>
                  have hkind : a.kind = .stepLine :=
                    Option.some.inj (ht.symm.trans (Token.kind_of_isOff hoff))
                  rw [Token.mute_of_isOff hoff] at hmute
                  subst hmute
                  have hcomment : b.kind = .comment := Option.some.inj hu.symm
                  have hnext := (s.muted_off s' hs a ha hkind b hb hcomment).1
                  exact .cons (first.off hm hstyle hoff ha hs hb hkind hcomment)
                    (ih rest' hnext hrest later hdialect hstyle' rfl)
              | false =>
                  rw [Token.mute_of_not_isOff hoff] at hmute
                  subst hmute
                  have hkind : a.kind = b.kind := Option.some.inj (ht.symm.trans hu)
                  have hnext : b.next ∈ a.next.muted :=
                    (s.muted_kept s' hs a ha b hb hkind).1.resolve_right
                      (Trail.not_apart hrest rest rest')
                  exact .cons (first.kept hm hstyle hoff ha hs hb hkind)
                    (ih rest' hnext hrest later hdialect hstyle' rfl)

namespace Parser

/-- The commented style is conservative. If nothing belongs to the steps that are switched off in an
accepted source, then the plain style accepts the source, too. The document is the same but for
these steps, which are gone, and for their lines, which are comments in the order of lines. -/
theorem commented_steps_are_conservative (stopAtFirst stopAtFirst' : Bool)
    (commented plain : Matcher) (hcommented : commented.style = .commentedSteps)
    (hplain : plain.style = .plain) (hdefault : plain.default = commented.default)
    (hmatcher : commented.default ∈ Dialect.table) (builder builder' : DocumentBuilder)
    (source : Text) (d : Document)
    (h : (parse { builder, stopAtFirst } commented source).outcome = .ok (some d))
    (hlone : ∀ s ∈ d.steps, s.isOff = true → s.argument = none) :
    (parse { builder := builder', stopAtFirst := stopAtFirst' } plain source).outcome =
        .ok (some (d.commentOut (Text.lines source))) ∧
      (d.commentOut (Text.lines source)).comments.Pairwise
        fun c c' => c.location.line < c'.location.line := by
  obtain ⟨x, xs, last, hbuilt, hvalid, hvalue, htrail, htaken, hstrides, _⟩ := exists_layout h
  obtain rfl : d = x.value := Option.some.inj hvalue
  have hlone := Layout.Document.lone_of_value hlone
  have hnumbers := built_numbers hmatcher h
  have hfresh := built_bare hmatcher h
  rw [← hbuilt] at hnumbers hfresh
  have hdocument : x.mute.value = x.value.commentOut (Text.lines source) := by
    refine x.mute_value hlone hnumbers fun t ht => ?_
    rw [← hfresh]
    exact List.mem_map_of_mem ht
  obtain ⟨ys, htrail', hstrides', _⟩ := x.mute.exists_trail
  have hreset : plain.reset = commented.reset.plain := by
    simp only [Matcher.reset, Matcher.leave, Matcher.plain, hplain, hdefault]
  have htaken' : Taken plain.reset ys last.plain := by
    rw [hreset]
    refine Taken.muted htrail htrail' (by decide) ?_ htaken hmatcher hcommented
    rw [hstrides', hstrides]
    exact x.mutes.tokens hlone
  rw [← Layout.Document.mute_bare hlone] at hfresh
  rw [← Layout.Document.mute_numbers hlone] at hnumbers
  rw [← hdocument]
  exact ⟨parse_taken (hdefault ▸ hmatcher) x.mute (Layout.Document.mute_valid hvalid) hfresh htrail'
    hstrides' htaken', Token.comments_pairwise hnumbers⟩

/-- Steps that are switched off in the head of a block and behind a table. -/
def halfOffSource : Text :=
  "Feature:\n#a\n Background:\n #* b\n\n Scenario:\n  * c\n  |d|\n  #?* e\n  # f\n".toList

/-- The document of that source, but for the steps and the comments. -/
def halfOffDocument (first second : List Step) (comments : List Comment) : Document where
  feature := some
    { tags := [], location := ⟨1, 1⟩, language := "en".toList, keyword := "Feature".toList,
      name := [], description := none,
      background := some
        { location := ⟨3, 2⟩, keyword := "Background".toList, name := [], description := none,
          steps := first },
      scenarios := [.scenario
        { tags := [], location := ⟨6, 2⟩, keyword := "Scenario".toList, name := [],
          description := none, steps := second }] }
  comments := comments

/-- The step with a table. -/
def halfOffStep : Step where
  location := ⟨7, 3⟩
  keyword := "* ".toList
  text := "c".toList
  argument := some (.dataTable
    { location := ⟨8, 3⟩, rows := [{ location := ⟨8, 3⟩, cells := [⟨⟨8, 4⟩, "d".toList⟩] }] })

def halfOffSteps : Document :=
  halfOffDocument [⟨⟨4, 2⟩, "#* ".toList, "b".toList, none⟩]
    [halfOffStep, ⟨⟨9, 3⟩, "#?* ".toList, "e".toList, none⟩]
    [⟨⟨2, 1⟩, "#a".toList⟩, ⟨⟨10, 1⟩, "  # f".toList⟩]

def halfOffComments : Document :=
  halfOffDocument [] [halfOffStep]
    [⟨⟨2, 1⟩, "#a".toList⟩, ⟨⟨4, 1⟩, " #* b".toList⟩, ⟨⟨9, 1⟩, "  #?* e".toList⟩,
      ⟨⟨10, 1⟩, "  # f".toList⟩]

theorem commented_steps_are_conservative_halfOffSource :
    Dialect.english ∈ Dialect.table ∧
      (parse { builder := ({} : DocumentBuilder) } (.new .commentedSteps .english)
        halfOffSource).outcome = .ok (some halfOffSteps) ∧
      (∀ s ∈ halfOffSteps.steps, s.isOff = true → s.argument = none) ∧
      (parse { builder := ({} : DocumentBuilder) } (.new .plain .english)
        halfOffSource).outcome = .ok (some halfOffComments) := by
  have henglish : Dialect.english ∈ Dialect.table := by decide
  have hok : (parse { builder := ({} : DocumentBuilder) } (.new .commentedSteps .english)
      halfOffSource).outcome = .ok (some halfOffSteps) := by decide +kernel
  have hlone : ∀ s ∈ halfOffSteps.steps, s.isOff = true → s.argument = none := by decide
  have hcommented : halfOffSteps.commentOut (Text.lines halfOffSource) = halfOffComments := by
    decide +kernel
  have hplain := commented_steps_are_conservative false false (.new .commentedSteps .english)
    (.new .plain .english) rfl rfl rfl henglish {} {} halfOffSource halfOffSteps hok hlone
  rw [hcommented] at hplain
  exact ⟨henglish, hok, hlone, hplain.1⟩

end Parser

end FeatureFile
