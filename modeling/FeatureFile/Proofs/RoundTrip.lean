import FeatureFile.Proofs.WrittenPhrases

/-!
# Writing and reading again

The document of an accepted source is legible, a legible feature is written as the lines of a phrase
that stands for it, and a phrase that cannot be misread is read as what it stands for. So a document
survives being written and read again (`Writer.parse_write`). What gets lost are the places, which are
new ones, and the comments, which are not written.
-/

namespace FeatureFile

/-- The document with nothing said about places, and without its comments. -/
def Document.bare (d : Document) : Document where
  feature := d.feature.map (Feature.relocate .forget)
  comments := []

/-- If there is room for the lines of the last level, there is room for those of all levels. -/
theorem Writer.hasRoom_of_indent {w : Writer} (h : w.Affords (2 * w.indent)) : w.HasRoom := by
  intro level hlevel
  rw [Writer.exists_margin_iff]
  unfold Writer.Affords Writer.lengthLimit at h ⊢
  have hlevels : level = 0 ∨ level = 1 ∨ level = 2 := by omega
  rcases hlevels with rfl | rfl | rfl <;> omega

namespace Parser

/-- A feature on lines that cannot be misread is read. -/
theorem parse_feature (x : Layout.Feature) (hvalid : x.Valid) {ls : List Line}
    (hwhole : ∀ l ∈ ls, l.Whole) (htokens : x.part.tokens.map Token.bare = Token.onLines 0 ls)
    (htold : ∀ t ∈ x.part.tokens, t.Told) (hspots : ∀ v ∈ x.spots, Spot.Free v) :
    ∃ d : Document, d.feature = some x.value ∧ d.comments = [] ∧
      ∀ reader : Parser DocumentBuilder,
        (reader.parse .editing ls.flatten).outcome = .ok (some d) := by
  let last : Token :=
    { number := ls.length + 1, line := none,
      reading := some { kind := .eof, dialect := Dialect.english.name } }
  let doc : Layout.Document := { gaps := [], feature := some x, eof := ⟨last, rfl⟩ }
  have hdoc : doc.tokens = x.part.tokens ++ [last] := rfl
  have hmem : ∀ t ∈ doc.tokens, t.kind? = some .other ∨ t.Plain ∨ t.Last := by
    rw [hdoc, List.forall_mem_append, List.forall_mem_singleton]
    exact ⟨fun t ht => (htold t ht).imp_right .inl, .inr (.inr ⟨rfl, rfl⟩)⟩
  have hfree : ∀ v ∈ doc.spots, Spot.Free v := by
    rw [show doc.spots = x.spots ++ [] from rfl, List.append_nil]
    exact hspots
  have hcomments : doc.value.comments = [] := by
    refine List.filterMap_eq_nil_iff.mpr fun t ht => if_neg fun hkind => ?_
    rcases hmem t ht with h | ⟨_, reading, _, hreading, hnone, _⟩ | ⟨_, hreading⟩
    · rw [h] at hkind
      cases hkind
    · rw [Token.kind?, hreading] at hkind
      exact hnone.2 (Option.some.inj hkind)
    · rw [Token.kind?, hreading] at hkind
      cases hkind
  refine ⟨doc.value, rfl, hcomments, fun reader => parse_layout (by decide +kernel) doc ?_ ?_ ?_⟩
  · intro y hy
    cases hy
    exact hvalid
  · rw [hdoc, List.map_append, htokens, Text.lines_flatten hwhole, Token.fresh_eq_onLines]
    simp [last, Token.bare]
  · exact fun xs htrail hstrides hspots => doc.clear hmem hfree htrail hstrides hspots

end Parser

namespace Writer

variable {parser : Parser DocumentBuilder} {matcher : Matcher} {source : Text}

/-- A document that has been read is written without a fault if there is room for its margins, and
what is written is read as the same document, apart from places, and without comments. The document
has to be in English; doc strings and rows without cells are not written so that they could be read
again. -/
theorem parse_write (hmatcher : matcher.default ∈ Dialect.table)
    (hstyle : matcher.style = .commentedSteps) {d : Document}
    (h : (parser.parse matcher source).outcome = .ok (some d)) {f : Feature}
    (hf : d.feature = some f) (hlanguage : f.language = Dialect.english.name)
    (hdoc : ∀ s ∈ f.steps, ∀ a ∈ s.argument, a.isDocString = false)
    (hcells : ∀ r ∈ f.rows, r.cells ≠ []) (w : Writer) (htables : w.support.tables = true) :
    (w.Affords (2 * w.indent) → (w.write d.draft).fault = none) ∧
      ((w.write d.draft).fault = none → ∃ d' : Document, d'.bare = d.bare ∧ d'.comments = [] ∧
        ∀ reader : Parser DocumentBuilder,
          (reader.parse .editing (w.write d.draft).text).outcome = .ok (some d')) := by
  have hlegible := Parser.legible_of_parse_ok hmatcher hstyle h hf hlanguage hdoc hcells
  have hlays := Layout.feature_lays htables hlegible
  have hwrite : w.write d.draft = w.feature f.draft := by
    rw [Writer.write, Document.draft, hf]
    rfl
  rw [hwrite]
  refine ⟨fun hroom => hlays.fault (hasRoom_of_indent hroom), fun hfault => ?_⟩
  obtain ⟨ls, htext, hwhole, hphrase⟩ := hlays.lines hfault
  -- The phrase is looked at as it is numbered when it is read from the top.
  obtain ⟨x, htokens, htold, hvalue, hvalid, hspots⟩ := hphrase 0
  obtain ⟨d', hd', hcomments, hread⟩ :=
    Parser.parse_feature x hvalid hwhole htokens htold hspots
  refine ⟨d', ?_, hcomments, ?_⟩
  · rw [Document.bare, Document.bare, hd', hf, Option.map_some, Option.map_some, hvalue]
  · rw [htext]
    exact hread

/-- A source with a step that is switched off, a description, escaped cells, and tags on two lines. -/
def mixedSource : Text :=
  ("@a @b\n@c\nFeature: f\n  text\n\nBackground:\n#? Given  g\nScenario: s \n* s\n|x\\|y||\n" ++
    "|z| \\\\|\n@d\nScenario Outline:\n@e\nExamples:\n below\n|h|\n").toList

/-- What is written of it. -/
def mixedWritten : Text :=
  ("@a @b @c\nFeature: f\n  text\n\n   Background: \n      #?Given g\n\n   Scenario: s\n" ++
    "      * s\n      |x\\|y|  |\n      |z   |\\\\|\n\n   @d\n   Scenario Outline: \n\n" ++
    "   @e\n   Examples: \n below\n      |h|\n\n").toList

theorem parse_write_mixedSource : ∃ d f,
    (Parser.parse { builder := ({} : DocumentBuilder) } .editing mixedSource).outcome =
        .ok (some d) ∧
      d.feature = some f ∧ f.language = Dialect.english.name ∧
      (∀ s ∈ f.steps, ∀ a ∈ s.argument, a.isDocString = false) ∧ (∀ r ∈ f.rows, r.cells ≠ []) ∧
      write { indent := 3 } d.draft = { text := mixedWritten } ∧
      ∃ d' : Document, d'.bare = d.bare ∧ d'.comments = [] ∧ ∀ reader : Parser DocumentBuilder,
        (reader.parse .editing mixedWritten).outcome = .ok (some d') := by
  have henglish : Dialect.english ∈ Dialect.table := by decide
  have hcheck : ((Parser.parse { builder := ({} : DocumentBuilder) } .editing
      mixedSource).outcome.toOption.join.any fun d => d.feature.any fun f =>
        f.language = Dialect.english.name &&
          f.steps.all (fun s => s.argument.all fun a => !a.isDocString) &&
          f.rows.all (fun r => !r.cells.isEmpty) &&
          write { indent := 3 } d.draft = { text := mixedWritten }) = true := by
    decide +kernel
  obtain ⟨d, h⟩ : ∃ d, (Parser.parse { builder := ({} : DocumentBuilder) } .editing
      mixedSource).outcome = .ok (some d) := by
    cases h : (Parser.parse { builder := ({} : DocumentBuilder) } .editing mixedSource).outcome with
    | error e =>
        rw [h] at hcheck
        cases hcheck
    | ok o =>
        cases o with
        | none =>
            rw [h] at hcheck
            cases hcheck
        | some d => exact ⟨d, rfl⟩
  rw [h] at hcheck
  change d.feature.any _ = true at hcheck
  cases hf : d.feature with
  | none =>
      rw [hf] at hcheck
      cases hcheck
  | some f =>
      rw [hf] at hcheck
      simp only [Option.any_some, Bool.and_eq_true, decide_eq_true_eq, List.all_eq_true] at hcheck
      obtain ⟨⟨⟨hlanguage, hdoc⟩, hcells⟩, hwrite⟩ := hcheck
      have hdoc : ∀ s ∈ f.steps, ∀ a ∈ s.argument, a.isDocString = false := by
        intro s hs a ha
        have hall := hdoc s hs
        rw [ha] at hall
        simpa using hall
      have hcells : ∀ r ∈ f.rows, r.cells ≠ [] := by
        intro r hr
        simpa using hcells r hr
      have hfault : (write { indent := 3 } d.draft).fault = none := by rw [hwrite]
      have htext : (write { indent := 3 } d.draft).text = mixedWritten := by rw [hwrite]
      obtain ⟨d', hbare, hcomments, hread⟩ :=
        (parse_write henglish rfl h hf hlanguage hdoc hcells { indent := 3 } rfl).2 hfault
      rw [htext] at hread
      exact ⟨d, f, h, hf, hlanguage, hdoc, hcells, hwrite, d', hbare, hcomments, hread⟩

end Writer

end FeatureFile
