import FeatureFile.Proofs.Legible
import FeatureFile.Proofs.Titles

/-!
# Lines as they are written

A written line is a margin, a text that does not begin with a blank, and a line feed. Each sort of
line that is written is read back for what it is and for nothing else (`Line.ReadsAs`), with two
exceptions that do no harm: everything may pass for free text, and a step that is switched off for a
comment, but these are tried later.

Most of it can be seen at the first character. The keywords of English do the rest: none is the
beginning of another one.
-/

namespace FeatureFile

/-- Can a line of the first kind be taken for one of the second? -/
def TokenKind.passesFor (k kind : TokenKind) : Bool :=
  kind == k || kind == .other || (k == .stepLine && kind == .comment)

/-- The line is read so, and is nothing else than what it may pass for. -/
structure Line.ReadsAs (l : Line) (reading : Reading) : Prop where
  yes : Matcher.editing.readLine reading.kind l = .yes reading .editing
  others : ∀ kind, Matcher.editing.readLine kind l = .no ∨
    ((Matcher.editing.readLine kind l).isYes = true ∧ reading.kind.passesFor kind = true)

/-! ## Keywords -/

/-- The first characters that tell what a line is. -/
def Line.signs : List (Char × TokenKind) :=
  [('#', .stepLine), ('@', .tagLine), ('|', .tableRow)] ++
    "\"`".toList.map fun c => (c, .docStringSeparator)

namespace Block

theorem readLine_kind (b : Block) (l : Line) : Matcher.editing.readLine b.kind l =
    Matcher.editing.verdictOf (Matcher.editing.readTitle b.kind b.keywords l) := by
  cases b <;> rfl

/-- No keyword begins two blocks. -/
theorem eq_of_mem_keywords {b b' : Block} {w : Text} : w ∈ b.keywords → w ∈ b'.keywords → b = b' := by
  revert w
  cases b <;> cases b' <;> decide

theorem colon_not_mem (b : Block) : ∀ w ∈ b.keywords, ':' ∉ w := by
  cases b <;> decide

/-- A title can be told from a step at its beginning. -/
theorem keywords_apart (b : Block) : ∀ k ∈ b.keywords, ∀ w ∈ Dialect.english.steps,
    ¬ w <+: k ++ [':'] ∧ ¬ k ++ [':'] <+: w := by
  cases b <;> decide

theorem keywords_head (b : Block) : ∀ w ∈ b.keywords,
    ∃ c, w.head? = some c ∧ isBlank c = false ∧ ∀ v ∈ Line.signs, v.1 ≠ c := by
  have htest : ∀ w ∈ b.keywords,
      (w.head?.any fun c => isBlank c = false ∧ ∀ v ∈ Line.signs, v.1 ≠ c) = true := by
    cases b <;> decide
  intro w hw
  obtain ⟨c, hhead, hc⟩ := (Option.any_eq_true _ _).mp (htest w hw)
  exact ⟨c, hhead, of_decide_eq_true hc⟩

end Block

namespace Dialect

theorem steps_head : ∀ w ∈ english.steps,
    ∃ c, w.head? = some c ∧ isBlank c = false ∧ (∀ v ∈ Line.signs, v.1 ≠ c) ∧ c ≠ '?' ∧ c ≠ 'l' := by
  have htest : ∀ w ∈ english.steps, (w.head?.any fun c =>
      isBlank c = false ∧ (∀ v ∈ Line.signs, v.1 ≠ c) ∧ c ≠ '?' ∧ c ≠ 'l') = true := by
    decide
  intro w hw
  obtain ⟨c, hhead, hc⟩ := (Option.any_eq_true _ _).mp (htest w hw)
  exact ⟨c, hhead, of_decide_eq_true hc⟩

/-- No step keyword is the beginning of another one. -/
theorem eq_of_steps_isPrefix : ∀ w ∈ english.steps, ∀ w' ∈ english.steps, w <+: w' → w = w' := by
  decide

end Dialect

/-! ## The first character -/

namespace Line

variable {l : Line} {c : Char} {reading : Reading}

theorem languageOf_eq_none (hl : l.trimmed.head? = some c) (hc : c ≠ '#') :
    Matcher.languageOf l = none :=
  Matcher.languageOf_of_not_hash (startsWith_of_head_ne hl rfl (Ne.symm hc))

theorem languageOf_behind_hash {d : Char} {ds : Text} (hl : l.trimmed = '#' :: d :: ds)
    (hblank : FeatureFile.isBlank d = false) (hd : d ≠ 'l') : Matcher.languageOf l = none := by
  have hbehind : Matcher.behind "#".toList l = some (d :: ds) := by
    rw [Matcher.behind, show Text.trimLeft l = _ from hl]
    rfl
  have hnot : "language".toList.isPrefixOf (d :: ds) = false := by
    rw [Bool.eq_false_iff, ne_eq, List.isPrefixOf_iff_prefix]
    exact fun h => hd (List.cons_prefix_cons.mp h).1.symm
  have hword : Matcher.behind "language".toList (d :: ds) = none := by
    rw [Matcher.behind, Text.trimLeft_of_head hblank, hnot]
    rfl
  rw [Matcher.languageOf, hbehind]
  simp only [bind, Option.bind, hword]

theorem stepMark_eq_nil (hl : l.trimmed.head? = some c) (hc : c ≠ '#') :
    Matcher.editing.stepMark l = [] := by
  rw [Matcher.stepMark, startsWith_of_head_ne hl rfl (Ne.symm hc),
    startsWith_of_head_ne hl rfl (Ne.symm hc)]
  rfl

/-- What a line is taken for, apart from titles, steps and headers, depends on its first
character. -/
theorem readsAs_of_head (hl : l.trimmed.head? = some c)
    (hyes : Matcher.editing.readLine reading.kind l = .yes reading .editing)
    (hsigns : ∀ v ∈ signs, v.1 = c → v.2 = reading.kind)
    (htitles : ∀ b : Block, b.kind ≠ reading.kind → ∀ w ∈ b.keywords, l.startsWithTitle w = false)
    (hstep : reading.kind ≠ .stepLine → Matcher.editing.readStep l = none)
    (hlanguage : Matcher.languageOf l = none) : l.ReadsAs reading := by
  refine ⟨hyes, fun kind => ?_⟩
  by_cases hkind : kind = reading.kind
  · subst hkind
    rw [hyes]
    exact .inr ⟨rfl, by rw [TokenKind.passesFor, beq_self_eq_true]; rfl⟩
  have hstart : ∀ d, (d, kind) ∈ signs → ∀ ds, l.startsWith (d :: ds) = false := fun d hd ds =>
    startsWith_of_head_ne hl rfl fun hdc => hkind (hsigns _ hd hdc)
  have htitle : ∀ b : Block, kind = b.kind → Matcher.editing.readLine kind l = .no := by
    rintro b rfl
    rw [b.readLine_kind, Matcher.verdictOf_eq_no, Matcher.readTitle_eq_none_iff]
    exact htitles b hkind
  cases kind with
  | eof => exact .inl rfl
  | empty =>
      obtain ⟨cs, hcs⟩ := exists_trimmed hl
      rw [Matcher.readLine, isBlank, hcs]
      exact .inl rfl
  | comment =>
      by_cases hc : '#' = c
      · have hmark : TokenKind.stepLine = reading.kind := hsigns ('#', .stepLine) (by decide) hc
        rw [Matcher.readLine, ← hmark]
        split
        · exact .inr ⟨rfl, rfl⟩
        · exact .inl rfl
      · rw [Matcher.readLine, startsWith_of_head_ne hl rfl hc]
        exact .inl rfl
  | tagLine =>
      rw [Matcher.readLine, show "@".toList = '@' :: [] from rfl, hstart '@' (by decide)]
      exact .inl rfl
  | featureLine => exact .inl (htitle .feature rfl)
  | backgroundLine => exact .inl (htitle .background rfl)
  | scenarioLine => exact .inl (htitle .scenario rfl)
  | scenarioOutlineLine => exact .inl (htitle .outline rfl)
  | examplesLine => exact .inl (htitle .examples rfl)
  | stepLine => exact .inl (Matcher.verdictOf_eq_no.mpr (hstep (Ne.symm hkind)))
  | docStringSeparator =>
      have hfence : Matcher.fenceOf l = none := by
        rw [Matcher.fenceOf, show Fence.quotes.text = '"' :: "\"\"".toList from rfl,
          hstart '"' (by decide)]
        rw [show l.startsWith Fence.backticks.text = false from hstart _ (by decide) _]
        rfl
      rw [Matcher.readLine, Matcher.readSeparator, hfence]
      exact .inl rfl
  | tableRow =>
      rw [Matcher.readLine, show "|".toList = '|' :: [] from rfl, hstart '|' (by decide)]
      exact .inl rfl
  | language =>
      rw [Matcher.readLine, Matcher.readLanguage, hlanguage]
      exact .inl rfl
  | other => exact .inr ⟨rfl, by simp [TokenKind.passesFor]⟩

/-- Lines of tags and rows of tables are known by their first character. -/
theorem readsAs_of_sign {k : TokenKind} (hl : l.trimmed.head? = some c) (hc : (c, k) ∈ signs)
    (hne : c ≠ '#') (hkind : reading.kind = k)
    (hyes : Matcher.editing.readLine reading.kind l = .yes reading .editing) : l.ReadsAs reading := by
  have hunique : ∀ v ∈ signs, ∀ u ∈ signs, v.1 = u.1 → v.2 = u.2 := by decide
  refine readsAs_of_head hl hyes (fun v hv h => ?_) (fun b _ w hw => ?_) (fun _ => ?_)
    (languageOf_eq_none hl hne)
  · exact (hunique v hv (c, k) hc h).trans hkind.symm
  · obtain ⟨d, hd, _, hsigns⟩ := b.keywords_head w hw
    refine startsWith_of_head_ne hl (d := d) ?_ (Ne.symm (hsigns _ hc))
    cases w with
    | nil => cases hd
    | cons d ds => exact hd
  · rw [Matcher.readStep_eq_none_iff, stepMark_eq_nil hl hne]
    intro w hw
    obtain ⟨d, hd, _, hsigns, _⟩ := Dialect.steps_head w hw
    rw [List.length_nil, List.drop_zero, startsWith_trimmed]
    exact startsWith_of_head_ne hl hd (Ne.symm (hsigns _ hc))

end Line

/-! ## Tags on a line -/

namespace Text

theorem exists_join_tags {n : Text} (hn : IsTag n) (ns : List Text) :
    ∃ t, join [' '] (n :: ns) = '@' :: t := by
  obtain ⟨p, rfl, _⟩ := hn
  cases ns with
  | nil => exact ⟨p, rfl⟩
  | cons m ns => exact ⟨_, rfl⟩

theorem splitOn_join_tags {ns : List Text} (hns : ∀ n ∈ ns, IsTag n) :
    (splitOn '@' (join [' '] ns)).tail.map (fun p => '@' :: trim p) = ns := by
  induction ns with
  | nil => rfl
  | cons n ns ih =>
      obtain ⟨p, rfl, hp, hat⟩ := hns n List.mem_cons_self
      have hrest : ∀ m ∈ ns, IsTag m := fun m hm => hns m (List.mem_cons_of_mem _ hm)
      cases ns with
      | nil =>
          have hsplit := splitOn_append (t := []) (List.not_mem_nil (a := '@')) p
          rw [splitOn_of_not_mem hat] at hsplit
          change (splitOn '@' ([] ++ '@' :: p)).tail.map _ = _
          rw [hsplit, List.tail_cons, List.map_singleton, hp.trim]
      | cons m ns =>
          obtain ⟨t, ht⟩ := exists_join_tags (hrest m List.mem_cons_self) ns
          have hat' : '@' ∉ p ++ [' '] := by
            rw [List.mem_append, not_or]
            exact ⟨hat, by decide⟩
          have hjoin : join [' '] (('@' :: p) :: m :: ns) = [] ++ '@' :: ((p ++ [' ']) ++ '@' :: t) := by
            rw [← ht]
            rfl
          have htrim : trim (p ++ [' ']) = p :=
            (trim_append_blanks p (List.forall_mem_singleton.mpr rfl)).trans hp.trim
          have ih := ih hrest
          rw [ht] at ih
          have hempty := splitOn_append (List.not_mem_nil (a := '@')) t
          rw [List.nil_append] at hempty
          rw [hempty, List.tail_cons] at ih
          rw [hjoin, splitOn_append List.not_mem_nil, List.tail_cons, splitOn_append hat',
            List.map_cons, ih, htrim]

theorem trim_join_tags {ns : List Text} (hns : ∀ n ∈ ns, IsTag n) :
    trim (join [' '] ns) = join [' '] ns := by
  refine trim_eq_self ?_ ?_
  · cases ns with
    | nil =>
        intro c hc
        cases hc
    | cons n ns =>
        obtain ⟨t, ht⟩ := exists_join_tags (hns n List.mem_cons_self) ns
        rw [ht]
        intro c hc
        cases hc
        rfl
  · induction ns with
    | nil =>
        intro c hc
        cases hc
    | cons n ns ih =>
        have hrest : ∀ m ∈ ns, IsTag m := fun m hm => hns m (List.mem_cons_of_mem _ hm)
        cases ns with
        | nil =>
            obtain ⟨p, rfl, hp, _⟩ := hns n List.mem_cons_self
            intro c hc
            rw [join, List.getLast?_cons] at hc
            cases hlast : p.getLast? with
            | none =>
                rw [hlast] at hc
                cases hc
                rfl
            | some d =>
                rw [hlast] at hc
                cases hc
                exact getLast?_of_trim hp.trim _ hlast
        | cons m ns =>
            obtain ⟨t, ht⟩ := exists_join_tags (hrest m List.mem_cons_self) ns
            have hlast : (join [' '] (n :: m :: ns)).getLast? = (join [' '] (m :: ns)).getLast? := by
              rw [join, ht, List.getLast?_append_of_ne_nil _ (List.cons_ne_nil _ _)]
            rw [hlast]
            exact ih hrest

end Text

/-! ## Cells of a row -/

namespace Table

variable (column start : Nat) (inside : Bool) (cell cs : Text)

theorem splitCellsFrom_pipe : splitCellsFrom column true start cell ('|' :: cs) =
    (splitCellsFrom (column + 1) true (column + 1) [] cs).map ((cell, start) :: ·) := by
  rw [splitCellsFrom]
  rfl

theorem splitCellsFrom_plain {c : Char} (hpipe : c ≠ '|') (hescape : c ≠ '\\') :
    splitCellsFrom column inside start cell (c :: cs) =
      splitCellsFrom (column + 1) inside start (cell ++ [c]) cs := by
  rw [splitCellsFrom]
  · exact hpipe
  · exact fun h => absurd h hescape
  · exact fun _ _ h => absurd h hescape

theorem splitCellsFrom_escaped (c : Char) :
    splitCellsFrom column inside start cell ('\\' :: c :: cs) =
      splitCellsFrom (column + 2) inside start (cell ++ unescape c) cs := by
  rw [splitCellsFrom]

/-- A character that is escaped is decoded again. -/
theorem splitCellsFrom_escapeChar (c : Char) : ∃ column',
    splitCellsFrom column inside start cell (escapeChar c ++ cs) =
      splitCellsFrom column' inside start (cell ++ [c]) cs := by
  rw [escapeChar]
  split
  · next h =>
      subst h
      exact ⟨column + 2, splitCellsFrom_escaped ..⟩
  · next hescape =>
      split
      · next h =>
          subst h
          exact ⟨column + 2, splitCellsFrom_escaped ..⟩
      · split
        · next h =>
            subst h
            exact ⟨column + 2, splitCellsFrom_escaped ..⟩
        · next hpipe => exact ⟨column + 1, splitCellsFrom_plain _ _ _ _ _ hpipe hescape⟩

theorem splitCellsFrom_escapeCell (v : Text) : ∃ column',
    splitCellsFrom column inside start cell (escapeCell v ++ cs) =
      splitCellsFrom column' inside start (cell ++ v) cs := by
  induction v generalizing column cell with
  | nil => exact ⟨column, by rw [List.append_nil]; rfl⟩
  | cons c v ih =>
      have hcons : escapeCell (c :: v) ++ cs = escapeChar c ++ (escapeCell v ++ cs) := by
        rw [escapeCell, List.flatMap_cons, List.append_assoc]
        rfl
      obtain ⟨column', hfirst⟩ :=
        splitCellsFrom_escapeChar column start inside cell (escapeCell v ++ cs) c
      obtain ⟨column'', hrest⟩ := ih column' (cell ++ [c])
      refine ⟨column'', ?_⟩
      rw [hcons, hfirst, hrest, List.append_assoc]
      rfl

theorem splitCellsFrom_blanks (n : Nat) :
    splitCellsFrom column inside start cell (List.replicate n ' ' ++ cs) =
      splitCellsFrom (column + n) inside start (cell ++ List.replicate n ' ') cs := by
  induction n generalizing column cell with
  | zero =>
      rw [List.replicate_zero, List.append_nil]
      rfl
  | succ n ih =>
      rw [List.replicate_succ, List.cons_append,
        splitCellsFrom_plain _ _ _ _ _ (by decide) (by decide), ih, List.append_assoc]
      congr 1
      omega

/-- A padded cell. -/
theorem splitCellsFrom_pad (w : Nat) (v : Text) : ∃ column' n,
    splitCellsFrom column inside start [] (Writer.pad w (escapeCell v) ++ cs) =
      splitCellsFrom column' inside start (v ++ List.replicate n ' ') cs := by
  obtain ⟨column', hv⟩ := splitCellsFrom_escapeCell column start inside []
    (List.replicate (w - (escapeCell v).length) ' ' ++ cs) v
  refine ⟨column' + (w - (escapeCell v).length), w - (escapeCell v).length, ?_⟩
  rw [Writer.pad, List.append_assoc, hv, splitCellsFrom_blanks]
  rfl

/-- The cells of a row are read back. -/
theorem splitCellsFrom_row {vs : List Text} {ws : List Nat} (hlength : ws.length = vs.length)
    (hne : vs ≠ []) (htrim : ∀ v ∈ vs, Text.trim v = v) : ∃ found,
    splitCellsFrom column true start []
        (Text.join ['|'] (List.zipWith Writer.pad ws (vs.map escapeCell)) ++ ['|']) = some found ∧
      found.map (fun f => Text.trim f.1) = vs := by
  -- A cell ends at the pipe behind it, and the last one at the pipe that ends the row.
  induction vs generalizing ws column start with
  | nil => exact absurd rfl hne
  | cons v vs ih =>
      cases ws with
      | nil => cases hlength
      | cons w ws =>
          have hv : ∀ n, Text.trim (v ++ List.replicate n ' ') = v := by
            intro n
            have hblank : ∀ c ∈ List.replicate n ' ', isBlank c = true := by
              intro c hc
              rw [List.eq_of_mem_replicate hc]
              rfl
            exact (Text.trim_append_blanks v hblank).trans (htrim v List.mem_cons_self)
          have hrest : ∀ u ∈ vs, Text.trim u = u := fun u hu => htrim u (List.mem_cons_of_mem _ hu)
          cases vs with
          | nil =>
              obtain ⟨column', n, hpad⟩ := splitCellsFrom_pad column start true ['|'] w v
              refine ⟨[(v ++ List.replicate n ' ', start)], ?_, ?_⟩
              · have hrow : Text.join ['|'] (List.zipWith Writer.pad (w :: ws) ([v].map escapeCell)) =
                    Writer.pad w (escapeCell v) := by
                  rw [List.map_singleton, List.zipWith_cons_cons, List.zipWith_nil_right]
                  rfl
                rw [hrow, hpad, splitCellsFrom_pipe]
                rfl
              · rw [List.map_singleton, hv]
          | cons u vs =>
              cases ws with
              | nil => cases hlength
              | cons w' ws =>
                  obtain ⟨column', n, hpad⟩ := splitCellsFrom_pad column start true
                    ('|' :: (Text.join ['|'] (List.zipWith Writer.pad (w' :: ws)
                      ((u :: vs).map escapeCell)) ++ ['|'])) w v
                  obtain ⟨found, hfound, htexts⟩ := ih (column' + 1) (column' + 1)
                    (Nat.succ.inj hlength) (List.cons_ne_nil _ _) hrest
                  refine ⟨(v ++ List.replicate n ' ', start) :: found, ?_, ?_⟩
                  · have hrow : Text.join ['|'] (List.zipWith Writer.pad (w :: w' :: ws)
                        ((v :: u :: vs).map escapeCell)) ++ ['|'] =
                        Writer.pad w (escapeCell v) ++ ('|' :: (Text.join ['|']
                          (List.zipWith Writer.pad (w' :: ws) ((u :: vs).map escapeCell)) ++
                            ['|'])) := by
                      simp [Text.join]
                    rw [hrow, hpad, splitCellsFrom_pipe, hfound]
                    rfl
                  · rw [List.map_cons, hv, htexts]

end Table

/-! ## Sorts of lines -/

theorem find?_eq_of_unique {α : Type} {p : α → Bool} {xs : List α} {x : α} (hx : x ∈ xs)
    (hp : p x = true) (hunique : ∀ y ∈ xs, p y = true → y = x) : xs.find? p = some x := by
  cases h : xs.find? p with
  | none => exact absurd hp (List.find?_eq_none.mp h x hx)
  | some y => rw [hunique y (List.mem_of_find?_eq_some h) (List.find?_some h)]

section Lines

variable {margin : Text} (hmargin : ∀ c ∈ margin, isBlank c = true)

/-- A line as it is written. -/
def written (margin core : Text) : Line := margin ++ (core ++ ['\n'])

include hmargin

theorem trim_written (core : Text) : Text.trim (written margin core) = Text.trim core :=
  Text.trim_append core hmargin (List.forall_mem_singleton.mpr rfl)

theorem trimmed_written {core : Text} {c : Char} (hcore : core.head? = some c)
    (hc : isBlank c = false) : (written margin core).trimmed = core ++ ['\n'] := by
  rw [written, Line.trimmed, Text.trimLeft_append, if_pos (Text.trimLeft_blanks hmargin)]
  cases core with
  | nil => cases hcore
  | cons d cs =>
      cases hcore
      exact Text.trimLeft_of_head hc _

theorem head_written {core : Text} {c : Char} (hcore : core.head? = some c)
    (hc : isBlank c = false) : (written margin core).trimmed.head? = some c := by
  rw [trimmed_written hmargin hcore hc]
  cases core with
  | nil => cases hcore
  | cons d cs => exact hcore

theorem title_readsAs (b : Block) {keyword name : Text} (hkeyword : keyword ∈ b.keywords)
    (hname : name.Tidy) :
    (written margin (keyword ++ ": ".toList ++ name)).ReadsAs
      { kind := b.kind, text := some name, keyword := some keyword,
        indent := (written margin (keyword ++ ": ".toList ++ name)).indent,
        dialect := Dialect.english.name } := by
  obtain ⟨c, hhead, hblank, hsigns⟩ := b.keywords_head keyword hkeyword
  have hcore : (keyword ++ ": ".toList ++ name).head? = some c := by
    cases keyword with
    | nil => cases hhead
    | cons d ds => exact hhead
  have hl := head_written hmargin hcore hblank
  have htrimmed := trimmed_written hmargin hcore hblank
  generalize written margin (keyword ++ ": ".toList ++ name) = l at hl htrimmed ⊢
  have hmark : c ≠ '#' := Ne.symm (hsigns ('#', .stepLine) (by decide))
  have htitle : l.startsWithTitle keyword = true := by
    rw [Line.startsWithTitle, Line.startsWith, htrimmed, List.isPrefixOf_iff_prefix]
    exact ⟨[' '] ++ name ++ ['\n'], by simp⟩
  -- The colon ends the keyword, so no shorter or longer one stands there.
  have hunique : ∀ b' : Block, ∀ w ∈ b'.keywords, l.startsWithTitle w = true → w = keyword :=
    fun b' w hw h => Line.title_unique (b'.colon_not_mem w hw) (b.colon_not_mem _ hkeyword) h htitle
  have htext : l.rest (keyword.length + 1) = name := by
    have hdrop : (keyword ++ ": ".toList ++ name ++ ['\n']).drop (keyword.length + 1) =
        [' '] ++ (name ++ ['\n']) := by
      simp [List.drop_append]
    have htrim : Text.trim ([' '] ++ (name ++ ['\n'])) = Text.trim name :=
      Text.trim_append name (List.forall_mem_singleton.mpr rfl) (List.forall_mem_singleton.mpr rfl)
    rw [Line.rest, htrimmed, hdrop, htrim, hname.trim]
  have hread : Matcher.editing.readTitle b.kind b.keywords l = some
      { kind := b.kind, text := some name, keyword := some keyword, indent := l.indent,
        dialect := Dialect.english.name } := by
    rw [Matcher.readTitle, find?_eq_of_unique hkeyword htitle (hunique b), ← htext]
    rfl
  refine Line.readsAs_of_head hl ?_ (fun v hv hc => absurd hc (hsigns v hv)) ?_ ?_ ?_
  · rw [b.readLine_kind, hread]
    rfl
  · intro b' hb' w hw
    rw [Bool.eq_false_iff]
    intro h
    rw [hunique b' w hw h] at hw
    exact hb' (congrArg Block.kind (Block.eq_of_mem_keywords hw hkeyword))
  · intro _
    rw [Matcher.readStep_eq_none_iff, Line.stepMark_eq_nil hl hmark]
    intro w hw
    rw [List.length_nil, List.drop_zero, Line.startsWith_trimmed, Line.startsWith, htrimmed,
      Bool.eq_false_iff, ne_eq, List.isPrefixOf_iff_prefix]
    intro hw'
    obtain ⟨hstep, htitle⟩ := b.keywords_apart keyword hkeyword w hw
    have hfront : keyword ++ [':'] <+: keyword ++ ": ".toList ++ name ++ ['\n'] :=
      ⟨[' '] ++ name ++ ['\n'], by simp⟩
    rcases List.prefix_or_prefix_of_prefix hw' hfront with h | h
    · exact hstep h
    · exact htitle h
  · exact Line.languageOf_eq_none hl hmark

omit hmargin in
/-- What a step line is taken for once its mark is known. -/
theorem readsAs_of_stepMark {l : Line} {mark word text : Text} {c d : Char}
    (hword : word ∈ Dialect.english.steps) (htext : text.Tidy)
    (hhead : word.head? = some c) (hblank : isBlank c = false)
    (htrimmed : l.trimmed = mark ++ (word ++ (text ++ ['\n'])))
    (hmark : Matcher.editing.stepMark l = mark) (hl : l.trimmed.head? = some d)
    (hsigns : ∀ v ∈ Line.signs, v.1 = d → v.2 = .stepLine)
    (htitles : ∀ b : Block, ∀ w ∈ b.keywords, l.startsWithTitle w = false)
    (hlanguage : Matcher.languageOf l = none) :
    l.ReadsAs
      { kind := .stepLine, text := some text, keyword := some (mark ++ word),
        indent := l.indent, dialect := Dialect.english.name } := by
  have hbare : (Matcher.editing.bare l).trimmed = word ++ (text ++ ['\n']) := by
    rw [Matcher.trimmed_bare, hmark, htrimmed, List.drop_left]
    cases word with
    | nil => cases hhead
    | cons c cs =>
        cases hhead
        exact Text.trimLeft_of_head hblank _
  have hstart : ∀ w, (Matcher.editing.bare l).startsWith w = true ↔
      w <+: word ++ (text ++ ['\n']) := by
    intro w
    rw [Line.startsWith, hbare, List.isPrefixOf_iff_prefix]
  have hfront : word <+: word ++ (text ++ ['\n']) := List.prefix_append _ _
  have hfind : Dialect.english.steps.find? (Matcher.editing.bare l).startsWith = some word := by
    refine find?_eq_of_unique hword ((hstart word).mpr hfront) fun w hw h => ?_
    rcases List.prefix_or_prefix_of_prefix ((hstart w).mp h) hfront with h | h
    · exact Dialect.eq_of_steps_isPrefix w hw word hword h
    · exact (Dialect.eq_of_steps_isPrefix word hword w hw h).symm
  have hrest : (Matcher.editing.bare l).rest word.length = text := by
    rw [Line.rest, hbare, List.drop_left]
    exact (Text.trim_append_blanks text (List.forall_mem_singleton.mpr rfl)).trans htext.trim
  refine Line.readsAs_of_head hl ?_ hsigns (fun b _ => htitles b) (fun h => absurd rfl h) hlanguage
  rw [Matcher.readLine, Matcher.readStep_eq, show Matcher.editing.dialect = .english from rfl, hfind,
    Option.map_some, hrest, hmark]
  rfl

omit hmargin in
theorem step_head {mark word : Text} (hmark : mark ∈ Matcher.marks)
    (hword : word ∈ Dialect.english.steps) (text : Text) :
    ∃ c, (mark ++ word ++ text).head? = some c ∧ isBlank c = false := by
  obtain ⟨c, hhead, hblank, _⟩ := Dialect.steps_head word hword
  simp only [Matcher.marks, List.mem_cons, List.not_mem_nil, or_false] at hmark
  rcases hmark with rfl | rfl | rfl
  · refine ⟨c, ?_, hblank⟩
    cases word with
    | nil => cases hhead
    | cons d cs => exact hhead
  · exact ⟨'#', rfl, rfl⟩
  · exact ⟨'#', rfl, rfl⟩

/-- Steps, switched off or not. -/
theorem step_readsAs {mark word text : Text} (hmark : mark ∈ Matcher.marks)
    (hword : word ∈ Dialect.english.steps) (htext : text.Tidy) :
    (written margin (mark ++ word ++ text)).ReadsAs
      { kind := .stepLine, text := some text, keyword := some (mark ++ word),
        indent := (written margin (mark ++ word ++ text)).indent,
        dialect := Dialect.english.name } := by
  obtain ⟨c, hhead, hblank, hsigns, hc, hc'⟩ := Dialect.steps_head word hword
  obtain ⟨cs, hcs⟩ : ∃ cs, word = c :: cs := by
    cases word with
    | nil => cases hhead
    | cons d cs =>
        cases hhead
        exact ⟨cs, rfl⟩
  have hne : c ≠ '#' := Ne.symm (hsigns ('#', .stepLine) (by decide))
  -- Behind a hash mark there is no title.
  have hhash : ∀ l : Line, l.trimmed.head? = some '#' → ∀ b : Block, ∀ w ∈ b.keywords,
      l.startsWithTitle w = false := by
    intro l hl b w hw
    obtain ⟨d, hd, _, hd'⟩ := b.keywords_head w hw
    refine Line.startsWith_of_head_ne hl (d := d) ?_ (Ne.symm (hd' ('#', .stepLine) (by decide)))
    cases w with
    | nil => cases hd
    | cons d ds => exact hd
  have htrimmed : (written margin (mark ++ word ++ text)).trimmed =
      mark ++ (word ++ (text ++ ['\n'])) := by
    obtain ⟨d, hd, hd'⟩ := step_head hmark hword text
    rw [trimmed_written hmargin hd hd', List.append_assoc, List.append_assoc]
  generalize written margin (mark ++ word ++ text) = l at htrimmed ⊢
  -- What the first character gives away depends on the mark.
  simp only [Matcher.marks, List.mem_cons, List.not_mem_nil, or_false] at hmark
  rcases hmark with rfl | rfl | rfl
  · have hl : l.trimmed.head? = some c := by rw [htrimmed, hcs]; rfl
    refine readsAs_of_stepMark hword htext hhead hblank htrimmed (Line.stepMark_eq_nil hl hne) hl
      (fun v hv h => absurd h (hsigns v hv)) (fun b w hw => ?_) (Line.languageOf_eq_none hl hne)
    rw [Line.startsWithTitle, Line.startsWith, htrimmed, Bool.eq_false_iff, ne_eq,
      List.isPrefixOf_iff_prefix]
    intro h
    obtain ⟨hstep, htitle⟩ := b.keywords_apart w hw word hword
    have hfront : word <+: word ++ (text ++ ['\n']) := List.prefix_append _ _
    rcases List.prefix_or_prefix_of_prefix h hfront with h | h
    · exact htitle h
    · exact hstep h
  · have hl : l.trimmed.head? = some '#' := by rw [htrimmed]; rfl
    refine readsAs_of_stepMark hword htext hhead hblank htrimmed ?_ hl (by decide) (hhash l hl) ?_
    · rw [Matcher.stepMark, Line.startsWith, Line.startsWith, htrimmed, hcs]
      simp [Matcher.editing, Matcher.new, Ne.symm hc]
    · exact Line.languageOf_behind_hash (hcs ▸ htrimmed) hblank hc'
  · have hl : l.trimmed.head? = some '#' := by rw [htrimmed]; rfl
    refine readsAs_of_stepMark hword htext hhead hblank htrimmed ?_ hl (by decide) (hhash l hl) ?_
    · rw [Matcher.stepMark, Line.startsWith, Line.startsWith, htrimmed, hcs]
      simp [Matcher.editing, Matcher.new]
    · exact Line.languageOf_behind_hash (d := '?') htrimmed rfl (by decide)

theorem tags_readsAs {names : List Text} (hne : names ≠ []) (hnames : ∀ n ∈ names, Text.IsTag n) :
    ∃ items : List Item, items.map Item.text = names ∧
      (written margin (Text.join [' '] names)).ReadsAs
        { kind := .tagLine, indent := (written margin (Text.join [' '] names)).indent, items,
          dialect := Dialect.english.name } := by
  obtain ⟨t, ht⟩ : ∃ t, Text.join [' '] names = '@' :: t := by
    cases names with
    | nil => exact absurd rfl hne
    | cons n ns => exact Text.exists_join_tags (hnames n List.mem_cons_self) ns
  have hhead : (Text.join [' '] names).head? = some '@' := by rw [ht]; rfl
  have hl := head_written hmargin hhead rfl
  have htrimmed := trimmed_written hmargin hhead rfl
  have htrim : Text.trim (written margin (Text.join [' '] names)) = Text.join [' '] names :=
    (trim_written hmargin _).trans (Text.trim_join_tags hnames)
  generalize written margin (Text.join [' '] names) = l at hl htrimmed htrim ⊢
  refine ⟨l.tags, ?_, Line.readsAs_of_sign hl (k := .tagLine) (by decide) (by decide) rfl ?_⟩
  · rw [Line.tags_text, htrim, Text.splitOn_join_tags hnames]
  · rw [Matcher.readLine, if_pos]
    · rfl
    · rw [Line.startsWith, htrimmed, ht]
      rfl

theorem row_readsAs {cells : List Text} {widths : List Nat}
    (hlength : widths.length = cells.length) (hne : cells ≠ [])
    (htrim : ∀ v ∈ cells, Text.trim v = v) :
    ∃ items : List Item, items.map Item.text = cells ∧
      (written margin (Writer.rowText widths (cells.map Table.escapeCell))).ReadsAs
        { kind := .tableRow, items, dialect := Dialect.english.name,
          indent := (written margin (Writer.rowText widths (cells.map Table.escapeCell))).indent } := by
  obtain ⟨found, hfound, htexts⟩ := Table.splitCellsFrom_row 2 2 hlength hne htrim
  have hrow : Writer.rowText widths (cells.map Table.escapeCell) =
      '|' :: (Text.join ['|'] (List.zipWith Writer.pad widths (cells.map Table.escapeCell)) ++
        ['|']) := rfl
  have hsplit : Table.splitCells (Writer.rowText widths (cells.map Table.escapeCell)) =
      some found := by
    rw [Table.splitCells, hrow, Table.splitCellsFrom]
    exact hfound
  have hhead : (Writer.rowText widths (cells.map Table.escapeCell)).head? = some '|' := rfl
  have hself : Text.trim (Writer.rowText widths (cells.map Table.escapeCell)) =
      Writer.rowText widths (cells.map Table.escapeCell) := by
    refine Text.trim_eq_self (fun c hc => ?_) fun c hc => ?_
    · cases hc
      rfl
    · rw [hrow, ← List.cons_append, List.getLast?_concat] at hc
      cases hc
      rfl
  -- From here on it does not matter what the row looks like inside.
  generalize Writer.rowText widths (cells.map Table.escapeCell) = core at hsplit hhead hself
  have hl := head_written hmargin hhead rfl
  have hcells : (written margin core).cells = some (found.map fun cell =>
      { column := cell.2 + (written margin core).indent + Text.indent cell.1,
        text := Text.trim cell.1 }) := by
    rw [Line.cells, trim_written hmargin, hself, hsplit]
    rfl
  refine ⟨found.map fun cell =>
    { column := cell.2 + (written margin core).indent + Text.indent cell.1,
      text := Text.trim cell.1 },
    ?_, Line.readsAs_of_sign hl (k := .tableRow) (by decide) (by decide) rfl ?_⟩
  rotate_left
  · rw [Matcher.readLine, if_pos, hcells]
    · rfl
    · obtain ⟨cs, hcs⟩ := Line.exists_trimmed hl
      rw [Line.startsWith, hcs]
      rfl
  · rw [List.map_map, ← htexts]
    rfl

omit hmargin in
theorem blank_readsAs : (written [] []).ReadsAs
    { kind := .empty, dialect := Dialect.english.name } := by
  refine ⟨rfl, fun kind => ?_⟩
  cases kind <;> decide

end Lines

end FeatureFile
