import FeatureFile.Proofs.LineOrder

/-!
# Titles between tags

Between the tags of a scenario a parser meets tags, comments, blank lines and at last the title of the
scenario. None of them can be taken for the title of an examples block, in any language. This is a
fact about keywords: none that begins examples starts with a hash mark or an at sign, none of the
titles has a colon inside, and no title of a scenario also begins examples.
-/

namespace FeatureFile

namespace Dialect

/-- Titles of examples that cannot be taken for a comment, for tags or for the title of a
scenario. -/
def TitlesApart (examples scenarios : List Text) : Bool :=
  (examples.all fun k => k.head? != some '#' && k.head? != some '@') &&
    ((examples ++ scenarios).all fun k => !k.contains ':') &&
    scenarios.all fun k => !examples.contains k

theorem words_cons {word : String} {cs : Text} {rest : List String} {ts : List Text}
    (h : word = String.ofList cs) (hrest : words rest = ts) : words (word :: rest) = cs :: ts := by
  rw [h, words, List.map_cons, String.toList_ofList, ← hrest]
  rfl

theorem titlesApart_words {examples scenarios outlines : List String} {es ss os : List Text}
    (hes : words examples = es) (hss : words scenarios = ss) (hos : words outlines = os)
    (h : TitlesApart es (ss ++ os) = true) :
    TitlesApart (words examples) (words scenarios ++ words outlines) = true := by
  rw [hes, hss, hos]
  exact h

theorem titlesApart_of_mem : ∀ d ∈ table,
    TitlesApart d.examples (d.scenarios ++ d.outlines) = true := by
  unfold table
  -- Each keyword is spelled out first, which is much faster than to let the check do it.
  repeat
    refine List.forall_mem_cons.mpr ⟨?_, ?_⟩
    · apply titlesApart_words
      · repeat apply words_cons rfl
        rfl
      · repeat apply words_cons rfl
        rfl
      · repeat apply words_cons rfl
        rfl
      · decide +kernel
  exact List.forall_mem_nil _

end Dialect

theorem Line.not_startsWithTitle_of_mark {l : Line} {k : Text} {c : Char} (hc : c ≠ ':')
    (hk : k.head? ≠ some c) (h : l.startsWith [c] = true) : l.startsWithTitle k = false := by
  rw [Bool.eq_false_iff]
  intro htitle
  obtain ⟨rest, hrest⟩ := List.isPrefixOf_iff_prefix.mp h
  obtain ⟨tail, htail⟩ := List.isPrefixOf_iff_prefix.mp htitle
  rw [← hrest] at htail
  cases k with
  | nil => exact hc (List.cons.inj htail).1.symm
  | cons d k =>
      have hd : d = c := (List.cons.inj htail).1
      exact hk (congrArg some hd)

/-- A line has one title at most. -/
theorem Line.title_unique {l : Line} {k k' : Text} (hk : ':' ∉ k) (hk' : ':' ∉ k')
    (h : l.startsWithTitle k = true) (h' : l.startsWithTitle k' = true) : k = k' := by
  have hbefore : ∀ {a b rest : Text}, ':' ∉ a → a ++ [':'] ++ b = rest →
      rest.takeWhile (· != ':') = a := by
    intro a b rest ha heq
    rw [← heq, List.append_assoc, List.takeWhile_append_of_pos]
    · simp
    · intro c hc
      simp only [bne_iff_ne, ne_eq]
      rintro rfl
      exact ha hc
  obtain ⟨b, hb⟩ := List.isPrefixOf_iff_prefix.mp h
  obtain ⟨b', hb'⟩ := List.isPrefixOf_iff_prefix.mp h'
  rw [← hbefore hk hb, hbefore hk' hb']

namespace Matcher

variable {m : Matcher} {t : Token}

theorem readTitle_isYes (kind : TokenKind) (keywords : List Text) (l : Line) :
    (m.verdictOf (m.readTitle kind keywords l)).isYes = keywords.any l.startsWithTitle := by
  rw [readTitle, ← List.isSome_find?]
  cases keywords.find? l.startsWithTitle <;> rfl

theorem exists_title {kind : TokenKind} {keywords : List Text} {l : Line}
    (h : (m.verdictOf (m.readTitle kind keywords l)).isYes = true) :
    ∃ k ∈ keywords, l.startsWithTitle k = true := by
  rw [readTitle_isYes] at h
  exact List.any_eq_true.mp h

/-- A line that is expected between the tags of a scenario is no title of examples. -/
theorem ask_examplesLine_eq_false {kind : TokenKind} (hm : m.dialect ∈ Dialect.table)
    (hkind : kind ∈ [.empty, .comment, .tagLine, .scenarioLine, .scenarioOutlineLine])
    (h : (m.ask [] kind t).isYes = true) : (m.ask [] .examplesLine t).isYes = false := by
  have hne : kind ≠ .eof := by
    rintro rfl
    revert hkind
    decide
  obtain ⟨l, hl, hread⟩ := exists_line_of_ask hne h
  have hapart := Dialect.titlesApart_of_mem m.dialect hm
  simp only [Dialect.TitlesApart, Bool.and_eq_true, List.all_eq_true, bne_iff_ne,
    List.mem_append, Bool.not_eq_true', List.contains_eq_mem, decide_eq_false_iff_not] at hapart
  obtain ⟨⟨hmarks, hcolons⟩, hscenarios⟩ := hapart
  rw [Bool.eq_false_iff]
  intro hexamples
  rw [ask_of_line hl rfl, readLine] at hexamples
  obtain ⟨k, hk, htitle⟩ := exists_title hexamples
  have hother : ∀ k', k' ∈ m.dialect.scenarios ∨ k' ∈ m.dialect.outlines →
      l.startsWithTitle k' = false := by
    intro k' hk'
    rw [Bool.eq_false_iff]
    intro htitle'
    have heq := Line.title_unique (hcolons k (.inl hk)) (hcolons k' (.inr hk')) htitle htitle'
    exact hscenarios k' hk' (heq ▸ hk)
  simp only [List.mem_cons, List.not_mem_nil, or_false] at hkind
  rcases hkind with rfl | rfl | rfl | rfl | rfl
  · have hline := blank_or_comment_of_ask (.inl h)
    obtain ⟨l', hl', hblank⟩ := hline
    rw [hl] at hl'
    cases hl'
    rw [Line.not_startsWithTitle (hmarks k hk).1 hblank] at htitle
    cases htitle
  · have hline := blank_or_comment_of_ask (.inr h)
    obtain ⟨l', hl', hcomment⟩ := hline
    rw [hl] at hl'
    cases hl'
    rw [Line.not_startsWithTitle (hmarks k hk).1 hcomment] at htitle
    cases htitle
  · rw [readLine] at hread
    split at hread
    · next hat =>
        rw [Line.not_startsWithTitle_of_mark (by decide) (hmarks k hk).2 hat] at htitle
        cases htitle
    · cases hread
  · rw [readLine] at hread
    obtain ⟨k', hk', htitle'⟩ := exists_title hread
    rw [hother k' (.inl hk')] at htitle'
    cases htitle'
  · rw [readLine] at hread
    obtain ⟨k', hk', htitle'⟩ := exists_title hread
    rw [hother k' (.inr hk')] at htitle'
    cases htitle'

end Matcher

end FeatureFile
