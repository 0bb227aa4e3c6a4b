import FeatureFile.Proofs.Following
import FeatureFile.Proofs.WrittenLines

/-!
# Layouts that cannot be misread

For a layout to be followed, every one of its tokens has to be taken for what it is in the state where
it is read. For most lines the state does not matter: they pass for little else than what they are,
and that is tried later everywhere (`State.rank_of_passesFor`). Free text is different, since it is
what nothing else has claimed. A layout knows the states in which it is read, and there it has to be
free (`Spot.Free`).
-/

namespace FeatureFile

/-- The line of the token is read as the token says, which is neither a header nor a comment. -/
def Token.Plain (t : Token) : Prop :=
  ∃ l reading, t.line = some l ∧ t.reading = some reading ∧
    (reading.kind ≠ .language ∧ reading.kind ≠ .comment) ∧ l.ReadsAs reading

/-- The end of the input. -/
def Token.Last (t : Token) : Prop :=
  t.line = none ∧ t.reading = some { kind := .eof, dialect := Dialect.english.name }

/-- A line of a description, in a state where it is free text. -/
def Spot.Free (v : State × Token) : Prop :=
  ∃ b p t, v.1 = .block b p ∧ p ≠ .commented ∧ v.2.line = some (written [] t) ∧
    v.2.reading = some { kind := .other, text := some t, dialect := Dialect.english.name } ∧
    Line.Free v.1 t

namespace State

/-- What a line passes for is tried behind what it is. -/
theorem rank_of_passesFor (s : State) : ∀ a ∈ s.moves, ∀ b ∈ s.moves,
    a.kind.passesFor b.kind = true → b.kind = a.kind ∨ s.rank a.kind < s.rank b.kind := by
  revert s
  exact forall_of_all (by decide +kernel)

end State

variable {x : Stride}

theorem Token.Plain.clear (h : x.token.Plain) (hmove : x.move ∈ x.state.moves)
    (hkind : x.token.kind? = some x.move.kind) : x.Clear .editing := by
  obtain ⟨l, reading, hl, hreading, _, hreads⟩ := h
  have hask : ∀ kind, Matcher.editing.ask [] kind x.token = Matcher.editing.readLine kind l :=
    fun kind => Matcher.ask_of_line hl rfl
  have hk : reading.kind = x.move.kind := by
    rw [Token.kind?, hreading] at hkind
    exact Option.some.inj hkind
  refine ⟨⟨reading, hreading, ?_⟩, fun a ha => ?_⟩
  · rw [hask, ← hk]
    exact hreads.yes
  · rw [hask]
    rcases hreads.others a.kind with hno | ⟨hyes, hpass⟩
    · exact .inl hno
    · exact .inr ⟨hyes, x.state.rank_of_passesFor _ hmove a ha (hk ▸ hpass)⟩

theorem Token.Last.clear (h : x.token.Last) (hkind : x.token.kind? = some x.move.kind) :
    x.Clear .editing := by
  obtain ⟨hline, hreading⟩ := h
  have hk : x.move.kind = .eof := by
    rw [Token.kind?, hreading] at hkind
    exact (Option.some.inj hkind).symm
  have hno : ∀ kind, kind ≠ .eof → Matcher.editing.ask [] kind x.token = .no := by
    intro kind hne
    rcases Matcher.ask_cases .editing [] kind x.token with hno | ⟨_, heof, _⟩ | ⟨l, hl, _⟩
    · exact hno
    · exact absurd heof hne
    · rw [hline] at hl
      cases hl
  have hyes : Matcher.editing.ask [] .eof x.token =
      .yes { kind := .eof, dialect := Dialect.english.name } .editing := by
    unfold Matcher.ask Matcher.read Token.isEnd
    rw [hline]
    rfl
  refine ⟨⟨_, hreading, hk ▸ hyes⟩, fun a _ => ?_⟩
  by_cases ha : a.kind = .eof
  · rw [ha, hyes]
    exact .inr ⟨rfl, .inl hk.symm⟩
  · exact .inl (hno _ ha)

theorem Spot.Free.clear (h : Spot.Free (x.state, x.token)) (hkind : x.move.kind = .other) :
    x.Clear .editing := by
  obtain ⟨b, p, t, hstate, hp, hl, hreading, hfree⟩ := h
  change x.state = _ at hstate
  have hask : ∀ kind, Matcher.editing.ask [] kind x.token =
      Matcher.editing.readLine kind (written [] t) := fun kind => Matcher.ask_of_line hl rfl
  have hends : ∀ c ∈ ['\n'], Text.isLineEnd c = true := List.forall_mem_singleton.mpr rfl
  have hno : ∀ a ∈ x.state.moves, a.kind ≠ .other →
      Matcher.editing.readLine a.kind (written [] t) = .no := by
    intro a ha hne
    refine (Matcher.readLine_eq_no_iff hends rfl rfl ?_).mpr (hfree.no a ha hne)
    exact (State.rank_lt_other b p a (hstate ▸ ha) hne).2
  have hyes : Matcher.editing.readLine .other (written [] t) =
      .yes { kind := .other, text := some t, dialect := Dialect.english.name } .editing := by
    have hchomp : Text.chomp (written [] t) = t := by
      exact (Text.dropEnd_append t hends).trans hfree.chomp
    rw [Matcher.readLine, Matcher.contentOf_of_outside rfl, hchomp]
    rfl
  refine ⟨⟨_, hreading, ?_⟩, fun a ha => ?_⟩
  · rw [hask, hkind, hyes]
  · rw [hask]
    by_cases hother : a.kind = .other
    · rw [hother, hyes]
      exact .inr ⟨rfl, .inl hkind.symm⟩
    · exact .inl (hno a ha hother)

/-- A layout of lines that are read for what they are is followed. -/
theorem Layout.Document.clear {d : Layout.Document} {xs : List Stride}
    (htokens : ∀ t ∈ d.tokens, t.kind? = some .other ∨ t.Plain ∨ t.Last)
    (hspots : ∀ v ∈ d.spots, Spot.Free v) (htrail : Trail .start xs .finished)
    (hstrides : xs.map Stride.token = d.tokens) (hfree : xs.filterMap Stride.spot? = d.spots) :
    ∀ y ∈ xs, y.Clear .editing := by
  intro y hy
  obtain ⟨hmove, hkind⟩ := htrail.mem y hy
  have hmem : y.token ∈ d.tokens := by
    rw [← hstrides]
    exact List.mem_map_of_mem hy
  rcases htokens _ hmem with hother | hplain | hlast
  · have hother : y.move.kind = .other := Option.some.inj (hkind.symm.trans hother)
    refine (hspots _ ?_).clear hother
    rw [← hfree]
    exact List.mem_filterMap.mpr ⟨y, hy, if_pos hother⟩
  · exact hplain.clear hmove hkind
  · exact hlast.clear hkind

end FeatureFile
