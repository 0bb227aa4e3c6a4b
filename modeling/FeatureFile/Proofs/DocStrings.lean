import FeatureFile.Proofs.Attaching
import FeatureFile.Proofs.Fences

/-!
# Doc strings

A doc string is written from any texts of one line: between two separators, all lines behind the same
indent, and the separators in the texts escaped (`DocString.written`). Put behind the line of a step
that has no argument, it is read as the argument of that step, with the same texts in it
(`Parser.parse_docString_inserted`). What the texts look like does not matter, since in a doc string
nothing but the separator is asked for.

The strides in front of the doc string are those of the source without it. Its own strides leave the
matcher as it was (`Layout.DocString.taken_ofLines`), so the strides behind it are those that were
behind the step (`Trail.resume`): the parser is in another state there, but all it could do in this
state it could do behind the step, and in the same order.
-/

namespace FeatureFile

namespace DocString

/-- A text of one line that has no escaped separator in it. -/
structure Holds (t : Text) : Prop where
  newline : '\n' ∉ t
  ending : t.getLast? ≠ some '\r'
  escaped : Text.mentions Fence.escaped t = false

theorem Holds.chomp_eq {t : Text} (h : Holds t) : Text.chomp t = t := by
  rw [Text.chomp, Text.dropEnd_eq_rdropWhile, List.rdropWhile_eq_self_iff]
  intro hne hend
  rcases (Bool.or_eq_true _ _).mp hend with hreturn | hnewline
  · refine h.ending ?_
    rw [List.getLast?_eq_getLast_of_ne_nil hne, beq_iff_eq.mp hreturn]
  · exact h.newline (beq_iff_eq.mp hnewline ▸ List.getLast_mem hne)

/-- A doc string as it is written, with a text behind the separator that opens it, all lines behind
the same indent and the separators in them escaped. -/
def written (n : Nat) (c : Text) (ts : List Text) : List Line :=
  .indented n (Fence.quotes.text ++ c) ::
    ((ts.map fun t => .indented n (Fence.escape t)) ++ [.indented n Fence.quotes.text])

end DocString

/-! ## Its tokens -/

namespace Layout

/-- The lines of a doc string as they are read, the first behind `k` others. -/
def contentLines (name : Text) (n : Nat) : Nat → List Text → List (Leaf .other)
  | _, [] => []
  | k, t :: ts =>
    { token :=
        { number := k + 1
          line := some (Line.indented n (Fence.escape t)).ended
          reading := some { kind := .other, text := some t, dialect := name } }
      kind_eq := rfl } :: contentLines name n (k + 1) ts

/-- A doc string as it is read, behind `k` lines. -/
def DocString.ofLines (name : Text) (n : Nat) (c : Text) (ts : List Text) (k : Nat) : DocString where
  opener :=
    { token :=
        { number := k + 1
          line := some (Line.indented n (Fence.quotes.text ++ c)).ended
          reading := some
            { kind := .docStringSeparator, text := some c, indent := n, dialect := name } }
      kind_eq := rfl }
  lines := contentLines name n (k + 1) ts
  closer :=
    { token :=
        { number := (k + 1 + ts.length : Nat) + 1
          line := some (Line.indented n Fence.quotes.text).ended
          reading := some { kind := .docStringSeparator, indent := n, dialect := name } }
      kind_eq := rfl }
  gaps := []

variable {name : Text} {n k : Nat} {c : Text} {ts : List Text}

theorem bare_contentLines (name : Text) :
    (Part.tokensAll ((contentLines name n k ts).map Leaf.part)).map Token.bare =
      Reader.numbered k ((ts.map fun t => Line.indented n (Fence.escape t)).map Line.ended) := by
  induction ts generalizing k with
  | nil => rfl
  | cons t ts ih =>
      rw [contentLines, List.map_cons, List.map_cons, List.map_cons, Part.tokensAll_cons,
        List.map_append, ih]
      rfl

theorem bare_ofLines : (Part.tokensAll (DocString.ofLines name n c ts k).parts).map Token.bare =
    Reader.numbered k ((FeatureFile.DocString.written n c ts).map Line.ended) := by
  rw [FeatureFile.DocString.written, List.map_cons, List.map_append, Reader.numbered,
    Reader.numbered_append, ← bare_contentLines name, List.length_map, List.length_map]
  simp [DocString.parts, DocString.ofLines, Leaf.part, Reader.numbered, Token.bare]

theorem texts_contentLines :
    (contentLines name n k ts).map (fun x => Node.textOf x.token) = ts := by
  induction ts generalizing k with
  | nil => rfl
  | cons t ts ih =>
      rw [contentLines, List.map_cons, ih]
      rfl

theorem value_ofLines : (DocString.ofLines name n c ts k).value =
    { location := ⟨k + 1, n + 1⟩, contentType := if c.isEmpty then none else some c,
      content := Text.join ['\n'] ts } := by
  rw [DocString.value]
  simp only [DocString.ofLines, texts_contentLines]
  rfl

theorem mem_contentLines {x : Leaf .other} (h : x ∈ contentLines name n k ts) :
    ∃ t ∈ ts, x.token.line = some (Line.indented n (Fence.escape t)).ended ∧
      x.token.reading = some { kind := .other, text := some t, dialect := name } := by
  induction ts generalizing k with
  | nil => cases h
  | cons t ts ih =>
      rcases List.mem_cons.mp h with rfl | h
      · exact ⟨t, List.mem_cons_self, rfl, rfl⟩
      · obtain ⟨u, hu, hx⟩ := ih h
        exact ⟨u, List.mem_cons_of_mem t hu, hx⟩

end Layout

/-! ## Its strides -/

namespace State

/-- What a step is followed by is tried behind three other kinds, if it is a doc string. -/
theorem before_docString (o : StepOwner) : ∀ a ∈ (step o).moves,
    (step o).rank a.kind < (step o).rank .docStringSeparator →
      a.kind ∈ [TokenKind.stepLine, .eof, .tableRow] := by
  cases o <;> decide

theorem before_content (o : StepOwner) : ∀ a ∈ (docString o).moves,
    (docString o).rank a.kind < (docString o).rank .other → a.kind = .docStringSeparator := by
  cases o <;> decide

theorem before_closer (o : StepOwner) : ∀ a ∈ (docString o).moves,
    ¬ (docString o).rank a.kind < (docString o).rank .docStringSeparator := by
  cases o <;> decide

end State

/-- The strides of a step that is followed by a doc string. -/
def Layout.DocString.strides (o : StepOwner) (x : DocString) : List Stride :=
  ⟨.step o, .enter .docStringSeparator [.docString] (.docString o), x.opener.token⟩ ::
    ((x.lines.map fun y =>
        ⟨.docString o, .stay .other (.docString o), y.token⟩) ++
      [⟨.docString o, .stay .docStringSeparator (.docStringEnd o),
        x.closer.token⟩])

theorem Layout.DocString.map_strides (o : StepOwner) {x : DocString} (h : x.gaps = []) :
    (x.strides o).map Stride.token = Part.tokensAll x.parts := by
  rw [strides, parts, h, Part.tokensAll_cons, Part.tokensAll_append, tokensAll_leaves,
    List.map_cons, List.map_append, List.map_map]
  rfl

theorem Layout.DocString.trail (o : StepOwner) (x : DocString) :
    Trail (.step o) (x.strides o) (.docStringEnd o) := by
  have hlines : Trail (.docString o) (x.lines.map fun y =>
      ⟨.docString o, .stay .other (.docString o), y.token⟩) (.docString o) := by
    induction x.lines with
    | nil => exact .nil _
    | cons y ys ih => exact .cons (by simp [State.moves]) y.kind_eq ih
  exact .cons (by simp [State.moves]) x.opener.kind_eq
    (hlines.append (.cons (by simp [State.moves]) x.closer.kind_eq (.nil _)))

section Strides

variable {m : Matcher} {n k : Nat} {c : Text} {ts : List Text}

/-- A matcher outside of doc strings reads a doc string as it was written, and is the same again
behind it. -/
theorem Layout.DocString.taken_ofLines (o : StepOwner) (hm : m.dialect ∈ Dialect.table)
    (hdoc : m.separator = none) (hc : Text.trim c = c) (hts : ∀ t ∈ ts, DocString.Holds t) :
    Taken m ((ofLines m.dialect.name n c ts k).strides o) m := by
  obtain ⟨inside, hinside⟩ : ∃ inside : Matcher, inside = m.enter .quotes n := ⟨_, rfl⟩
  have hopen : inside.separator = some .quotes := by rw [hinside, Matcher.enter]
  have hindent : inside.indentToRemove = n := by rw [hinside, Matcher.enter]
  have hdialect : inside.dialect = m.dialect := by rw [hinside, Matcher.enter]
  have hclosed : inside.leave = m := by
    rw [hinside]
    exact Matcher.leave_of_outside hdoc
  refine .cons (?_ : Stride.Taken m _ inside)
    (.append (.of_forall fun x hx => ?_) (.cons ?_ (.nil m)))
  · refine .of_line hm rfl rfl (by simp [State.moves]) ?_ fun a ha hrank => ?_
    · rw [hinside]
      exact Matcher.readSeparator_opener hdoc hc
    · exact Matcher.readLine_opener hm (State.before_docString o a ha hrank)
  · obtain ⟨y, hy, rfl⟩ := List.mem_map.mp hx
    obtain ⟨t, ht, hline, hreading⟩ := mem_contentLines hy
    refine .of_line (hdialect ▸ hm) hline hreading (by simp [State.moves]) ?_ fun a ha hrank => ?_
    · rw [Move.stay, Matcher.readLine, Matcher.contentOf_content hopen hindent (hts t ht).escaped,
        (hts t ht).chomp_eq, hdialect]
    · rw [State.before_content o a ha hrank]
      exact Matcher.readSeparator_content hopen
  · refine .of_line (hdialect ▸ hm) rfl rfl (by simp [State.moves]) ?_ fun a ha hrank => ?_
    · rw [← hdialect, ← hclosed]
      exact Matcher.readSeparator_closer hopen
    · exact absurd hrank (State.before_closer o a ha)

end Strides

/-! ## Behind a doc string -/

namespace State

/-- What may follow a step may follow its doc string, but for an argument, and leads to the same
state. Comments and blank lines change nothing in either place. -/
theorem resumes (o o' : StepOwner) : ∀ a ∈ (step o).moves, ∀ b ∈ (docStringEnd o').moves,
    a.kind = b.kind → ∃ c ∈ (docStringEnd o).moves, c.kind = a.kind ∧
      (c.next = a.next ∨
        a.next = step o ∧ b.next = docStringEnd o' ∧ c.next = docStringEnd o) := by
  cases o <;> cases o' <;> decide

/-- Behind a doc string nothing is tried earlier than behind a step. -/
theorem rank_docStringEnd (o : StepOwner) : ∀ a ∈ (docStringEnd o).moves,
    ∀ b ∈ (docStringEnd o).moves, (docStringEnd o).rank b.kind < (docStringEnd o).rank a.kind →
      (step o).rank b.kind < (step o).rank a.kind := by
  cases o <;> decide

theorem next_of_stepLine (s : State) : ∀ a ∈ s.moves, a.kind = .stepLine →
    ∃ o ∈ [StepOwner.background, .scenario, .outline], a.next = .step o := by
  revert s
  exact State.forall_of_all (by decide)

end State

theorem Stride.Taken.resume {m next : Matcher} {o : StepOwner} {a b : Move} {t : Token}
    (h : Stride.Taken m ⟨.step o, a, t⟩ next) (hb : b ∈ (State.docStringEnd o).moves)
    (hkind : b.kind = a.kind) : Stride.Taken m ⟨.docStringEnd o, b, t⟩ next := by
  obtain ⟨reading, hreading, hask⟩ := h.ask
  refine ⟨⟨reading, hreading, ?_⟩, fun kind hrank => h.before kind ?_⟩
  · rw [← hkind] at hask
    exact hask
  · obtain ⟨c, hc, rfl⟩ := State.exists_move_of_rank_lt hb hrank
    have hless := State.rank_docStringEnd o b hb c hc hrank
    rw [hkind] at hless
    exact hless

namespace Trail

variable {o o' : StepOwner} {x : Stride} {xs ys : List Stride} {m last : Matcher}
  {s s' s'' : State}

/-- A trail behind a step can be taken up behind its doc string, if what follows is no argument: the
tokens lead on from behind some doc string. -/
theorem resume (h : Trail (.step o) xs .finished) (h' : Trail (.docStringEnd o') ys .finished)
    (htokens : xs.map Stride.token = ys.map Stride.token) (htaken : Taken m xs last) :
    ∃ zs, Trail (.docStringEnd o) zs .finished ∧ zs.map Stride.token = xs.map Stride.token ∧
      Taken m zs last := by
  induction xs generalizing m ys with
  | nil => cases h
  | cons x xs ih =>
      cases ys with
      | nil => cases htokens
      | cons y ys =>
          obtain ⟨htoken, htail⟩ := List.cons.inj htokens
          cases h with
          | @cons _ _ a t _ ha ht rest =>
              cases h' with
              | @cons _ _ b u _ hb hu rest' =>
                  cases htaken with
                  | cons first htaken =>
                      obtain rfl : t = u := htoken
                      have hkind : a.kind = b.kind := Option.some.inj (ht.symm.trans hu)
                      obtain ⟨c, hc, hsame, hcases⟩ := State.resumes o o' a ha b hb hkind
                      rw [← hsame] at ht
                      have hstride := first.resume hc hsame
                      rcases hcases with hnext | ⟨hnext, hnext', hback⟩
                      · exact ⟨_, .cons hc ht (hnext ▸ rest), rfl, .cons hstride htaken⟩
                      · obtain ⟨zs, htrail, hzs, hrest⟩ :=
                          ih (hnext ▸ rest) (hnext' ▸ rest') htail htaken
                        exact ⟨_, .cons hc ht (hback ▸ htrail), congrArg (t :: ·) hzs,
                          .cons hstride hrest⟩

/-- Tokens that are no tags lead to one state. -/
theorem state_eq (h : Trail s xs s') (h' : Trail s ys s'')
    (htokens : xs.map Stride.token = ys.map Stride.token)
    (htags : ∀ x ∈ xs, x.token.kind? ≠ some .tagLine) : s' = s'' := by
  induction h generalizing ys with
  | nil s =>
      obtain rfl := List.map_eq_nil_iff.mp htokens.symm
      cases h'
      rfl
  | @cons s s' a t xs ha ht rest ih =>
      cases ys with
      | nil => cases htokens
      | cons y ys =>
          obtain ⟨htoken, htail⟩ := List.cons.inj htokens
          obtain ⟨hfirst, htags⟩ := List.forall_mem_cons.mp htags
          cases h' with
          | @cons _ _ b u _ hb hu rest' =>
              obtain rfl : t = u := htoken
              have hkind : a.kind = b.kind := Option.some.inj (ht.symm.trans hu)
              rcases s.eq_of_kind_eq a ha b hb hkind with rfl | ⟨htag, _⟩
              · exact ih rest' htail htags
              · exact absurd (ht.trans (congrArg some htag)) hfirst

/-- Behind the line of a step, the state is that of a step. -/
theorem exists_step (h : Trail s (xs ++ [x]) s') (hx : x.token.kind? = some .stepLine) :
    ∃ o, s' = .step o := by
  obtain ⟨mid, _, hlast⟩ := h.split
  cases hlast with
  | @cons _ _ a t _ ha ht rest =>
      cases rest
      have hkind : a.kind = .stepLine := Option.some.inj (ht.symm.trans hx)
      obtain ⟨o, _, ho⟩ := mid.next_of_stepLine a ha hkind
      exact ⟨o, ho⟩

end Trail

/-- Along a trail the matcher is in a doc string when the state is. -/
theorem Taken.inDocString {s s' : State} {m last : Matcher} {xs : List Stride}
    (htrail : Trail s xs s') (h : Taken m xs last) (hs : m.separator.isSome = s.inDocString) :
    last.separator.isSome = s'.inDocString := by
  induction htrail generalizing m with
  | nil s =>
      cases h
      exact hs
  | cons ha _ _ ih =>
      cases h with
      | cons first htaken => exact ih htaken (first.follows.inDocString ha rfl hs)

/-- Behind a doc string that follows a step, a layout goes on as behind a doc string. -/
theorem Layout.Document.exists_behind {y : Document} {us vs : List Token} {t : Token} {a : DocString}
    (ht : t.kind? = some .stepLine) (ha : a.gaps = [])
    (h : y.tokens = (us ++ [t]) ++ (Part.tokensAll a.parts ++ vs)) :
    ∃ o ys, Trail (.docStringEnd o) ys .finished ∧ ys.map Stride.token = vs := by
  obtain ⟨xs, htrail, htokens, _, _⟩ := y.exists_trail
  rw [h] at htokens
  obtain ⟨front, rest, rfl, hfront, hrest⟩ := List.map_eq_append_iff.mp htokens
  obtain ⟨middle, back, rfl, hmiddle, hback⟩ := List.map_eq_append_iff.mp hrest
  obtain ⟨front, last, rfl, _, hlast⟩ := List.map_eq_append_iff.mp hfront
  obtain ⟨z, _, rfl, hz, hnil⟩ := List.map_eq_cons_iff.mp hlast
  obtain rfl := List.map_eq_nil_iff.mp hnil
  obtain ⟨s, hfrontTrail, hrestTrail⟩ := htrail.split
  obtain ⟨o, rfl⟩ := hfrontTrail.exists_step (hz ▸ ht)
  obtain ⟨s, hmiddleTrail, hbackTrail⟩ := hrestTrail.split
  refine ⟨o, back, ?_, hback⟩
  have hstate := (a.trail o).state_eq hmiddleTrail ((a.map_strides o ha).trans hmiddle.symm) ?_
  · rw [hstate]
    exact hbackTrail
  · intro x hx htag
    have hmem : x.token ∈ Part.tokensAll a.parts := by
      rw [← a.map_strides o ha]
      exact List.mem_map_of_mem hx
    obtain ⟨k, hk, hkind⟩ := DocString.kinds ha _ hmem
    cases Option.some.inj (hkind.symm.trans htag)
    revert hk
    decide

/-- The step behind which a cut is made gets the argument. -/
theorem Document.mem_steps_attach {d : Document} {s : Step} (hs : s ∈ d.steps)
    (hargument : s.argument = none) {k : Nat} (hk : s.location.line = k) (count : Nat)
    {a : Argument} : { s with argument := some a } ∈
      ((d.relocate (Location.renumber (moveDown k count))).mapSteps (Step.attach k a)).steps := by
  have hstays : s.relocate (Location.renumber (moveDown k count)) = s := by
    obtain ⟨⟨line, column⟩, keyword, text, argument⟩ := s
    obtain rfl : argument = none := hargument
    obtain rfl : line = k := hk
    simp [Step.relocate, Location.renumber, moveDown_self]
  have hattach : { s with argument := some a } = Step.attach k a s := by
    rw [Step.attach, if_pos hk]
  rw [steps_mapSteps, steps_relocate, hattach]
  exact List.mem_map_of_mem (hstays ▸ List.mem_map_of_mem hs)

namespace Parser

variable {parser : Parser DocumentBuilder} {matcher : Matcher} {source longer : Text} {k n : Nat}

/-- The layout of a source, cut behind a step that has no argument, with a doc string in the cut. -/
theorem Cut.exists_attached {x : Layout.Document} {front back : List Stride} {q : State} {m : Matcher}
    (h : Cut matcher source k x front back q m) (hk : k ≤ (Text.lines source).length) {s : Step}
    (hs : s ∈ x.value.steps) (hargument : s.argument = none) (hline : s.location.line = k)
    (count : Nat) {a : Layout.DocString} (hgaps : a.gaps = []) (hvalid : a.Valid) :
    ∃ (front' : List Stride) (z : Stride) (y : Layout.Document),
      front = front' ++ [z] ∧ z.token.kind? = some .stepLine ∧ y.Valid ∧
      y.value = (x.value.relocate (Location.renumber (moveDown k count))).mapSteps
        (Step.attach k (.docString a.value)) ∧
      y.tokens = (front.map Stride.token).map (Token.shift (moveDown k count) Line.ended) ++
        (Part.tokensAll a.parts ++
          (back.map Stride.token).map (Token.shift (moveDown k count) Line.ended)) := by
  obtain ⟨w, hw, hwvalid, hwvalue⟩ := x.exists_shift (moveDown k count) Line.ended
  have hnumbers := h.nodup_shift hk hw
  -- The step in its place, on the line in front of the cut.
  obtain ⟨y, hy, hystep⟩ : ∃ y ∈ w.steps,
      y.value = s.relocate (Location.renumber (moveDown k count)) := by
    have hmem := List.mem_map_of_mem (f := Step.relocate (Location.renumber (moveDown k count))) hs
    rw [← Document.steps_relocate, ← hwvalue h.valid, w.steps_value] at hmem
    exact List.mem_map.mp hmem
  have hynumber : y.line.token.number = k := by
    have hplace : y.line.token.number = moveDown k count s.location.line :=
      congrArg (fun s => s.location.line) hystep
    rw [hplace, hline, moveDown_self]
  have hynone : y.argument = none := by
    have hmap : y.argument.map Layout.Argument.value =
        s.argument.map (Argument.relocate (Location.renumber (moveDown k count))) :=
      congrArg Step.argument hystep
    rw [hargument] at hmap
    exact Option.map_eq_none_iff.mp hmap
  have hpos : 0 < k := by
    have hmem := w.sublist_steps.subset (List.mem_map_of_mem hy)
    rw [hw] at hmem
    obtain ⟨t, ht, heq⟩ := List.mem_map.mp hmem
    have hnumber : moveDown k count t.number = y.line.token.number := congrArg Token.number heq
    have hless := h.number_pos hk t ht
    rw [hynumber, moveDown] at hnumber
    split at hnumber <;> omega
  obtain ⟨front', z, rfl, hz⟩ := h.exists_last hk hpos
  have hnumber : (z.token.shift (moveDown k count) Line.ended).number = k := by
    rw [Token.shift, hz, moveDown_self]
  have htokens : w.tokens =
      (front'.map Stride.token).map (Token.shift (moveDown k count) Line.ended) ++
        z.token.shift (moveDown k count) Line.ended ::
          (back.map Stride.token).map (Token.shift (moveDown k count) Line.ended) := by
    rw [hw, h.tokens]
    simp
  obtain ⟨hkind, v, hv, hvvalue, hvtokens⟩ := Layout.Document.exists_attached hnumbers
    (hwvalid.mpr h.valid) hy hynone htokens (hnumber.trans hynumber.symm) hgaps hvalid
  rw [hnumber, hwvalue h.valid] at hvvalue
  refine ⟨front', z, v, rfl, hkind, hv, hvvalue, ?_⟩
  rw [hvtokens]
  simp

/-- A doc string that is written behind a step without an argument is read as the argument of this
step, with the texts it was written from. All that stands behind it moves down. -/
theorem parse_docString_inserted (hmatcher : matcher.default ∈ Dialect.table) {d : Document}
    (h : (parser.parse matcher source).outcome = .ok (some d)) {s : Step} (hs : s ∈ d.steps)
    (hargument : s.argument = none) (hk : s.location.line = k) {c : Text} {ts : List Text}
    (hc : Text.trim c = c) (hts : ∀ t ∈ ts, DocString.Holds t)
    (hinserts : Text.Inserts (DocString.written n c ts) k source longer) :
    let a : Argument := .docString
      { location := ⟨k + 1, n + 1⟩, contentType := if c.isEmpty then none else some c,
        content := Text.join ['\n'] ts }
    let d' := (d.relocate (Location.renumber
      (moveDown k (DocString.written n c ts).length))).mapSteps (Step.attach k a)
    (parser.parse matcher longer).outcome = .ok (some d') ∧
      { s with argument := some a } ∈ d'.steps := by
  obtain ⟨x, front, back, q, m, rfl, hcut⟩ := exists_cut hmatcher h hinserts.le
  have hm := hcut.front_taken.dialect_mem hmatcher
  obtain ⟨last, hback⟩ := hcut.back_taken
  obtain ⟨front', z, y, hlast, hkind, hvalid, hvalue, htokens⟩ :=
    hcut.exists_attached hinserts.le hs hargument hk (DocString.written n c ts).length
      (a := .ofLines m.dialect.name n c ts k) rfl rfl
  obtain ⟨o, rfl⟩ := (hlast ▸ hcut.front_trail).exists_step hkind
  have hdoc : m.separator = none := by
    have hout := hcut.front_taken.inDocString hcut.front_trail rfl
    exact Option.isNone_iff_eq_none.mp (Option.isSome_eq_false_iff.mp hout)
  -- The matcher leaves the doc string as it came to it, and reads on as it did before.
  have hbehind := htokens
  rw [hlast, List.map_append, List.map_append] at hbehind
  obtain ⟨o', ys, hys, hysTokens⟩ := Layout.Document.exists_behind (y := y)
    (t := z.token.shift (moveDown k (DocString.written n c ts).length) Line.ended) hkind rfl hbehind
  obtain ⟨zs, hzs, hzsTokens, hzsTaken⟩ := hcut.back_trail.shift.resume hys
    ((Stride.map_token_shift back).trans hysTokens.symm) (hback.shift hm Text.chomp_ended)
  have htrail := (hcut.front_trail.shift (σ := moveDown k (DocString.written n c ts).length)
    (g := Line.ended)).append
      (((Layout.DocString.ofLines m.dialect.name n c ts k).trail o).append hzs)
  have htaken := (hcut.front_taken.shift (σ := moveDown k (DocString.written n c ts).length)
    hmatcher Text.chomp_ended).append
    ((Layout.DocString.taken_ofLines (n := n) (k := k) o hm hdoc hc hts).append hzsTaken)
  have hstrides : (front.map (Stride.shift (moveDown k (DocString.written n c ts).length)
      Line.ended) ++ ((Layout.DocString.ofLines m.dialect.name n c ts k).strides o ++ zs)).map
        Stride.token = y.tokens := by
    rw [htokens, List.map_append, List.map_append, Stride.map_token_shift,
      Layout.DocString.map_strides o rfl, hzsTokens, Stride.map_token_shift]
  refine ⟨?_, Document.mem_steps_attach hs hargument hk _⟩
  rw [hcut.parse_inserted hmatcher hinserts Layout.bare_ofLines y hvalid htokens htrail hstrides
    htaken, hvalue, Layout.value_ofLines]

/-- A background whose step has no argument, with a comment behind it. -/
def plainSource : Text :=
  "Feature: f\nBackground:\nGiven b\n# c\nScenario: s\n* a\n".toList

/-- Texts that would be separators, rows, steps, tags or comments outside of a doc string. -/
def quotedTexts : List Text :=
  ["\"\"\"".toList, "\"\"\"\"\" | x |".toList, "Given y".toList, [], " @t".toList, "# z".toList]

/-- The background with those texts behind its step. -/
def quotedSource : Text :=
  ("Feature: f\nBackground:\nGiven b\n  \"\"\"xml\n  \\\"\\\"\\\"\n  \\\"\\\"\\\"\"\" | x |\n" ++
    "  Given y\n  \n   @t\n  # z\n  \"\"\"\n# c\nScenario: s\n* a\n").toList

theorem parse_docString_inserted_quotedSource :
    Dialect.english ∈ Dialect.table ∧ Text.trim "xml".toList = "xml".toList ∧
      DocString.Holds "\"\"\"\"\" | x |".toList ∧ (∀ t ∈ quotedTexts, DocString.Holds t) ∧
      Text.Inserts (DocString.written 2 "xml".toList quotedTexts) 3 plainSource quotedSource ∧
      ∃ (d : Document) (s : Step), (parse { builder := ({} : DocumentBuilder) }
          (.new .plain .english) plainSource).outcome = .ok (some d) ∧
        s ∈ d.steps ∧ s.argument = none ∧ s.location.line = 3 ∧
        ∃ d' : Document, (parse { builder := ({} : DocumentBuilder) } (.new .plain .english)
            quotedSource).outcome = .ok (some d') ∧
          { s with argument := some (.docString
            { location := ⟨4, 3⟩, contentType := some "xml".toList,
              content := Text.join ['\n'] quotedTexts }) } ∈ d'.steps := by
  have henglish : Dialect.english ∈ Dialect.table := by decide
  have htrim : Text.trim "xml".toList = "xml".toList := by decide
  have hall : (quotedTexts.all fun t => !t.contains '\n' && t.getLast? != some '\r' &&
      !Text.mentions Fence.escaped t) = true := by
    decide +kernel
  have hholds : ∀ t ∈ quotedTexts, DocString.Holds t := by
    intro t ht
    have h := List.all_eq_true.mp hall t ht
    simp only [Bool.and_eq_true, Bool.not_eq_true', bne_iff_ne, ne_eq] at h
    obtain ⟨⟨hnewline, hending⟩, hescaped⟩ := h
    exact ⟨fun hmem => by simp [hmem] at hnewline, hending, hescaped⟩
  have hinserts : Text.Inserts (DocString.written 2 "xml".toList quotedTexts) 3 plainSource
      quotedSource :=
    ⟨by decide +kernel, by decide +kernel⟩
  have hcheck : ((parse { builder := ({} : DocumentBuilder) } (.new .plain .english)
      plainSource).outcome.toOption.join.any fun d =>
        d.steps.any fun s => s.argument == none && s.location.line == 3) = true := by
    decide +kernel
  obtain ⟨d, hd, hany⟩ := (Option.any_eq_true _ _).mp hcheck
  obtain ⟨s, hs, hfound⟩ := List.any_eq_true.mp hany
  obtain ⟨hnone, hline⟩ := (Bool.and_eq_true _ _).mp hfound
  have h := eq_ok_some_of_join hd
  have hread := parse_docString_inserted (k := 3) henglish h hs (beq_iff_eq.mp hnone)
    (beq_iff_eq.mp hline) htrim hholds hinserts
  exact ⟨henglish, htrim, hholds _ (by simp [quotedTexts]), hholds, hinserts, d, s, h, hs,
    beq_iff_eq.mp hnone, beq_iff_eq.mp hline, _, hread⟩

end Parser

end FeatureFile
