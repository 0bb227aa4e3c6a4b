import FeatureFile.Proofs.Chomping
import FeatureFile.Proofs.RoundTrip

/-!
# The language of what is written

A writer writes the keywords of a document as they are, in whatever language they are, but it does not
write a header that names the language. So what it writes is always read in the language that is in
force without a header (`Parser.language_eq_default`), and only an English document can be read again
as a document in its own language (`Writer.language_survives_iff`). An English document can, whatever
else is in it: doc strings and tables without cells look in print like something else, but they do not
get in the way (`Writer.feature_printed`).
-/

namespace FeatureFile

/-! ## Doc strings and tables without cells -/

theorem Table.widen_self (cells : List Text) :
    widen (cells.map List.length) cells = some (cells.map List.length) := by
  induction cells with
  | nil => rfl
  | cons t ts ih =>
      rw [List.map_cons, widen, ih, Option.map_some, Nat.max_self]

/-- Rows that are all the same are as wide as each of them. -/
theorem Table.columnWidths_replicate (n : Nat) (cells : List Text) :
    columnWidths (List.replicate (n + 1) cells) = .ok (cells.map List.length) := by
  have hall : ∀ n, widenAll (cells.map List.length) (List.replicate n cells) =
      .ok (cells.map List.length) := by
    intro n
    induction n with
    | zero => rfl
    | succ n ih =>
        rw [List.replicate_succ, widenAll, widen_self]
        exact ih
  exact hall (n + 1)

namespace Writer

variable (w : Writer) (level : Nat)

/-- A table of which all rows have the same cells. -/
theorem table_replicate {rows : List Row} (cells : List Text) (hne : rows ≠ [])
    (h : ∀ r ∈ rows, (r.cells.map fun c => Table.escapeCell c.value) = cells) :
    w.table level (rows.map Row.draft) =
      if w.support.tables then
        .all (List.replicate rows.length (w.line level (rowText (cells.map List.length) cells)))
      else { fault := some .tablesUnsupported } := by
  have htexts : (rows.map fun r => r.cells.map fun c => Table.escapeCell c.value) =
      List.replicate rows.length cells :=
    List.map_eq_replicate_iff.mpr h
  rw [table, collect_map row_draft, Written.given, htexts, widths]
  cases rows with
  | nil => exact absurd rfl hne
  | cons r rows =>
      rw [List.length_cons, Table.columnWidths_replicate]
      split
      · rw [Written.given, List.map_replicate]
      · rfl

/-- Of rows without cells is written what is written of rows with an empty cell each. -/
theorem table_printed (rows : List Row) :
    w.table level ((rows.map (Row.printed rows)).map Row.draft) =
      w.table level (rows.map Row.draft) := by
  by_cases hempty : rows.all (fun r => r.cells.isEmpty) = true
  · by_cases hne : rows = []
    · rw [hne]
      rfl
    · rw [w.table_replicate level [] hne fun r hr => ?_,
        w.table_replicate level [[]] (mt List.map_eq_nil_iff.mp hne) fun r hr => ?_, List.length_map]
      · rfl
      · obtain ⟨r, _, rfl⟩ := List.mem_map.mp hr
        rw [Row.printed, if_pos hempty]
        rfl
      · rw [List.isEmpty_iff.mp (List.all_eq_true.mp hempty r hr)]
        rfl
  · have hsame : rows.map (Row.printed rows) = rows := by
      refine (List.map_congr_left fun r _ => ?_).trans (List.map_id rows)
      rw [Row.printed, if_neg hempty]
      rfl
    rw [hsame]

theorem argument_printed (a : Option Argument) :
    w.argument level ((a.bind Argument.printed).map Argument.draft) =
      w.argument level (a.map Argument.draft) := by
  cases a with
  | none => rfl
  | some a =>
      cases a with
      | docString d => rfl
      | dataTable t =>
          exact congrArg (fun x => if Draft.dataTableType = Draft.dataTableType then x else {})
            (w.table_printed level t.rows)

theorem step_printed (s : Step) : w.step level s.printed.draft = w.step level s.draft :=
  congrArg (w.line level (s.keyword ++ s.text)).andThen (w.argument_printed level s.argument)

theorem body_printed (keyword name : Text) (description : Option Text) (steps : List Step) :
    w.body keyword name description (steps.map Step.printed) =
      w.body keyword name description steps := by
  simp only [body, List.map_map, Function.comp_def, step_printed]

theorem child_printed (x : ScenarioDefinition) :
    w.child 1 x.printed.draft = w.child 1 x.draft := by
  have hexamples : ∀ e : Examples, (w.examples 1 e.printed.draft).andThen (.line []) =
      (w.examples 1 e.draft).andThen (.line []) := by
    intro e
    have htable : ∀ t : ExamplesTable, w.table 2 ((t.printed.header :: t.printed.body).map Row.draft) =
        w.table 2 ((t.header :: t.body).map Row.draft) := fun t =>
      w.table_printed 2 (t.header :: t.body)
    rw [examples_draft, examples_draft]
    cases h : e.table with
    | none => rw [Examples.printed, h]; rfl
    | some t =>
        rw [Examples.printed, h, Option.map_some, Option.toList_some, Option.toList_some,
          List.map_singleton, List.map_singleton, htable]
  cases x with
  | scenario x => rw [ScenarioDefinition.printed, child_scenario, child_scenario, body_printed]
  | outline x =>
      rw [ScenarioDefinition.printed, child_outline, child_outline, body_printed]
      simp only [List.map_map, Function.comp_def, hexamples]

/-- Nothing is written of a feature but what is seen of it. -/
theorem feature_printed (x : Feature) : w.feature x.printed.draft = w.feature x.draft := by
  have hbackground : ∀ b : Background, w.child 1 b.printed.draft = w.child 1 b.draft := by
    intro b
    rw [child_background, child_background]
    exact w.body_printed b.keyword b.name b.description b.steps
  rw [feature_draft, feature_draft]
  simp only [Feature.printed, List.map_map, Function.comp_def, child_printed]
  cases h : x.background <;> simp only [Option.map, Option.toList, List.map, hbackground]

end Writer

/-! ## How a text starts -/

namespace Text

/-- The text starts with a character that is neither a blank nor a hash mark. -/
def StartsPlain (t : Text) : Prop := ∃ c cs, t = c :: cs ∧ isBlank c = false ∧ c ≠ '#'

namespace StartsPlain

variable {t : Text} (h : StartsPlain t)
include h

theorem append (u : Text) : StartsPlain (t ++ u) := by
  obtain ⟨c, cs, rfl, hc⟩ := h
  exact ⟨c, cs ++ u, rfl, hc⟩

theorem trimLeft_eq : trimLeft t = t := by
  obtain ⟨c, cs, rfl, hblank, _⟩ := h
  exact trimLeft_of_head hblank cs

theorem exists_lines : ∃ l ls, lines t = l :: ls ∧ StartsPlain l := by
  obtain ⟨c, cs, rfl, hblank, hhash⟩ := h
  have hc : c ≠ '\n' := by
    rintro rfl
    cases hblank
  cases hrest : lines cs with
  | nil => exact ⟨[c], [], lines_cons_nil hc hrest, c, [], rfl, hblank, hhash⟩
  | cons l ls => exact ⟨c :: l, ls, lines_cons_cons hc hrest, c, l, rfl, hblank, hhash⟩

end StartsPlain

end Text

/-- A line that starts so says nothing about the language, and is no comment and not blank. -/
theorem Matcher.readLine_of_startsPlain {m : Matcher} {l : Line} (h : Text.StartsPlain l)
    {kind : TokenKind} (hkind : kind ∈ [TokenKind.empty, .comment, .language]) :
    m.readLine kind l = .no := by
  have htrimmed : l.trimmed = l := h.trimLeft_eq
  obtain ⟨c, cs, rfl, _, hc⟩ := h
  have hhash : Line.startsWith (c :: cs) "#".toList = false := by
    rw [Line.startsWith, htrimmed]
    change ('#' == c && true) = false
    rw [beq_false_of_ne hc.symm, Bool.false_and]
  simp only [List.mem_cons, List.not_mem_nil, or_false] at hkind
  rcases hkind with rfl | rfl | rfl
  · rw [readLine, Line.isBlank, htrimmed]
    rfl
  · rw [readLine, hhash]
    rfl
  · rw [readLine, readLanguage, languageOf_of_not_hash hhash]

/-! ## Reading without a header -/

/-- A source that starts so is read in the language that is in force without a header. -/
theorem Parser.language_eq_default {parser : Parser DocumentBuilder} {matcher : Matcher}
    {source : Text} (hmatcher : matcher.default ∈ Dialect.table) (hsource : source.StartsPlain)
    {d : Document} (h : (parser.parse matcher source).outcome = .ok (some d)) {f : Feature}
    (hf : d.feature = some f) : f.language = matcher.default.name := by
  obtain ⟨x, xs, last, htokens, _, hvalue, htrail, htaken, hstrides, _⟩ := exists_layout h
  obtain rfl : d = x.value := Option.some.inj hvalue
  obtain ⟨y, hy, rfl⟩ := Option.map_eq_some_iff.mp hf
  rw [x.language_eq hy hstrides htrail htaken]
  have hbare := built_bare hmatcher h
  obtain ⟨l, ls, hlines, hl⟩ := hsource.exists_lines
  rw [← htokens, ← hstrides, hlines, Reader.fresh] at hbare
  cases htrail with
  | @cons _ _ a t xs ha ht rest =>
      cases htaken with
      | cons first htaken =>
          have hline : t.line = some l := congrArg Token.line (List.cons.inj hbare).1
          have hkind : a.kind ∉ [TokenKind.empty, .comment, .language] := by
            intro hmem
            have heof : a.kind ≠ .eof := by
              intro heof
              rw [heof] at hmem
              revert hmem
              decide
            obtain ⟨_, _, hl', _, hread⟩ := first.readLine heof
            cases hline.symm.trans hl'
            rw [Matcher.readLine_of_startsPlain hl hmem] at hread
            cases hread
          simp only [List.mem_cons, List.not_mem_nil, or_false, not_or] at hkind
          have hnext : a.next ≠ .start := fun hnext =>
            (State.start.next_ne_start a ha hnext).2.elim hkind.2.1 hkind.1
          obtain ⟨_, hsame, _⟩ := htaken.settled rest (first.follows.inDocString ha rfl rfl)
          rw [← hsame hnext, first.follows.dialect_eq hkind.2.2]
          rfl

/-! ## Writing without a header -/

theorem Written.exists_text_andThen (a b : Written) : ∃ rest, (a.andThen b).text = a.text ++ rest := by
  cases h : a.fault with
  | none => exact ⟨b.text, by rw [andThen, h]⟩
  | some fault => exact ⟨[], by rw [andThen, h, List.append_nil]⟩

namespace Writer

variable (w : Writer)

theorem line_zero (t : Text) : w.line 0 t = .line (Text.trimLeft t) := by
  have hmargin : w.margin 0 = .ok [] := by
    simp [margin, lengthLimit]
  rw [line, hmargin]
  rfl

/-- A feature is written from its tags or its keyword on. -/
theorem startsPlain_feature {f : Feature} (htags : ∀ t ∈ f.tags, t.Legible)
    (hkeyword : f.keyword.StartsPlain) : (w.feature f.draft).text.StartsPlain := by
  have hline : ∀ {t : Text} {rest : Written}, t.StartsPlain →
      ((w.line 0 t).andThen rest).text.StartsPlain := by
    intro t rest ht
    obtain ⟨u, hu⟩ := Written.exists_text_andThen (w.line 0 t) rest
    rw [hu, line_zero, ht.trimLeft_eq]
    exact (ht.append _).append _
  rw [feature_draft]
  cases hcase : f.tags with
  | nil =>
      rw [Written.andThen_assoc, heading, Written.andThen_assoc]
      exact hline ((hkeyword.append _).append _)
  | cons t ts =>
      obtain ⟨u, hu⟩ := Text.exists_join_tags (htags t (hcase ▸ List.mem_cons_self)) (ts.map Tag.name)
      rw [w.tags_draft]
      exact hline ⟨'@', u, hu, rfl, by decide⟩

end Writer

theorem Stride.Taken.startsPlain {m next : Matcher} {x : Stride} (h : x.Taken m next)
    (hm : m.dialect ∈ Dialect.table) (hkind : x.move.kind = .featureLine) :
    (Node.keywordOf x.token).StartsPlain := by
  obtain ⟨l, reading, _, hreading, hread⟩ := h.readLine (hkind ▸ TokenKind.noConfusion)
  rw [hkind, Matcher.readLine] at hread
  obtain ⟨keyword, hfind, rfl⟩ := Option.map_eq_some_iff.mp (Matcher.verdictOf_yes hread).1
  obtain ⟨c, cs, rfl, hhash, _⟩ := Dialect.exists_head hm (k := keyword) (by
    simp only [Dialect.keywords, List.append_assoc]
    exact List.mem_append_left _ (List.mem_of_find?_eq_some hfind))
  have hstart : l.startsWithTitle (c :: cs) = true := List.find?_some hfind
  obtain ⟨rest, hrest⟩ := List.isPrefixOf_iff_prefix.mp hstart
  rw [Node.keywordOf, hreading]
  exact ⟨c, cs, rfl, Text.head_of_trimLeft hrest.symm, hhash⟩

/-- What is written of the document of an accepted source starts with neither a blank nor a hash
mark. -/
theorem Writer.startsPlain_of_parse_ok {parser : Parser DocumentBuilder} {matcher : Matcher}
    {source : Text} (hmatcher : matcher.default ∈ Dialect.table) {d : Document}
    (h : (parser.parse matcher source).outcome = .ok (some d)) {f : Feature}
    (hf : d.feature = some f) (w : Writer) : (w.feature f.draft).text.StartsPlain := by
  obtain ⟨x, xs, last, htokens, _, hvalue, htrail, htaken, hstrides, _⟩ := Parser.exists_layout h
  obtain rfl : d = x.value := Option.some.inj hvalue
  obtain ⟨y, hy, rfl⟩ := Option.map_eq_some_iff.mp hf
  obtain ⟨_, _, hsettled⟩ := htaken.settled htrail rfl
  have hstride : ∀ t ∈ y.part.tokens, ∃ z ∈ xs, z.token = t := by
    intro t ht
    have hmem := x.mem_tokens_of_feature hy t ht
    rw [← hstrides] at hmem
    exact List.mem_map.mp hmem
  refine w.startsPlain_feature (Layout.legible_tags y.tags fun t ht htag => ?_) ?_
  · obtain ⟨z, hz, rfl⟩ := hstride t (y.tags_mem t ht)
    obtain ⟨_, _, hz'⟩ := htaken.exists_of_mem z hz
    refine hz'.legible_tags (Parser.oneLine_of_mem_built hmatcher h ?_) htag
    rw [← htokens, ← hstrides]
    exact List.mem_map_of_mem hz
  · obtain ⟨z, hz, htitle⟩ := hstride _ y.title_mem
    obtain ⟨_, _, hz'⟩ := htaken.exists_of_mem z hz
    have hkind : z.move.kind = .featureLine := by
      have hkind := hz'.kind
      rw [htitle, y.head.title.kind_eq] at hkind
      exact (Option.some.inj hkind).symm
    obtain ⟨m, next, hz, hdialect, _⟩ := hsettled z hz (by rw [hkind]; decide)
    have hkeyword := hz.startsPlain (hdialect ▸ htaken.dialect_mem hmatcher) hkind
    rw [htitle] at hkeyword
    exact hkeyword

namespace Writer

variable {parser : Parser DocumentBuilder} {matcher : Matcher} {source : Text} {d : Document}
  {f : Feature}

theorem write_draft (hf : d.feature = some f) (w : Writer) :
    w.write d.draft = w.feature f.draft := by
  rw [write, Document.draft, hf]
  rfl

theorem text_of_save {w : Writer} {x : Draft} {text : Text} (h : w.save x = .ok text) :
    (w.write x).text = text := by
  rw [save] at h
  split at h
  · split at h
    · next hwrite =>
        cases h
        rw [hwrite]
    · cases h
  · cases h

/-- What is seen of a document is saved and read again, if it is legible. -/
theorem exists_save (hf : d.feature = some f) (hlegible : f.printed.Legible) {w : Writer}
    (htables : w.support.tables = true) (hroom : w.Affords (2 * w.indent)) :
    ∃ text d' f', w.save d.draft = .ok text ∧
      (∀ reader : Parser DocumentBuilder, (reader.parse .editing text).outcome = .ok (some d')) ∧
      d'.feature = some f' ∧ f'.relocate .forget = f.printed.relocate .forget := by
  have hlays := Layout.feature_lays htables hlegible
  rw [feature_printed] at hlays
  have hfault := hlays.fault (hasRoom_of_indent hroom)
  obtain ⟨ls, htext, hwhole, hphrase⟩ := hlays.lines hfault
  obtain ⟨x, htokens, htold, hvalue, hvalid, hspots⟩ := hphrase 0
  obtain ⟨d', hd', _, hread⟩ := Parser.parse_feature x hvalid hwhole htokens htold hspots
  refine ⟨ls.flatten, d', x.value, ?_, hread, hd', hvalue⟩
  have hwrite : w.write d.draft = { text := ls.flatten, fault := none } := by
    rw [← htext, ← hfault, write_draft hf]
  rw [save, if_pos htables, hwrite]

/-- A document that has been read and is written can be read as a document in the same language if
this is English, and in no other case. -/
theorem language_survives_iff (hmatcher : matcher.default ∈ Dialect.table)
    (hstyle : matcher.style = .commentedSteps)
    (h : (parser.parse matcher source).outcome = .ok (some d)) (hf : d.feature = some f)
    (w : Writer) (htables : w.support.tables = true) (hroom : w.Affords (2 * w.indent))
    (reader : Parser DocumentBuilder) :
    (∃ text d' f', w.save d.draft = .ok text ∧
      (reader.parse .editing text).outcome = .ok (some d') ∧ d'.feature = some f' ∧
        f'.language = f.language) ↔ f.language = Dialect.english.name := by
  constructor
  · rintro ⟨text, d', f', hsave, hread, hf', hsame⟩
    have hstarts := startsPlain_of_parse_ok hmatcher h hf w
    rw [← write_draft hf, text_of_save hsave] at hstarts
    rw [← hsame]
    exact Parser.language_eq_default (by decide +kernel) hstarts hread hf'
  · intro hlanguage
    have hlegible := Parser.legible_printed_of_parse_ok hmatcher hstyle h hf hlanguage
    obtain ⟨text, d', f', hsave, hread, hf', hvalue⟩ := exists_save hf hlegible htables hroom
    have hsame : (f'.relocate .forget).language = (f.printed.relocate .forget).language := by
      rw [hvalue]
    exact ⟨text, d', f', hsave, hread reader, hf', hsame⟩

/-- A doc string, and a table without cells. -/
def unseenSource : Text :=
  "@a\nFeature: f\nScenario: s\n* a\n```\nx\n```\n* b\n|\n|\n".toList

theorem language_survives_iff_unseenSource : ∃ d f,
    (Parser.parse { builder := ({} : DocumentBuilder) } .editing unseenSource).outcome =
        .ok (some d) ∧
      d.feature = some f ∧ (f.steps.any fun s => s.argument.any Argument.isDocString) = true ∧
      (f.rows.all fun r => r.cells.isEmpty) = true ∧ f.rows.length = 2 ∧
      f.language = Dialect.english.name ∧
      ∃ text d' f', save {} d.draft = .ok text ∧
        (Parser.parse { builder := ({} : DocumentBuilder) } .editing text).outcome =
          .ok (some d') ∧ d'.feature = some f' ∧ f'.language = f.language := by
  have henglish : Dialect.english ∈ Dialect.table := by decide
  have hcheck : ((Parser.parse { builder := ({} : DocumentBuilder) } .editing
      unseenSource).outcome.toOption.join.any fun d => d.feature.any fun f =>
        (f.steps.any fun s => s.argument.any Argument.isDocString) &&
          (f.rows.all fun r => r.cells.isEmpty) && f.rows.length == 2 &&
          f.language == Dialect.english.name) = true := by
    decide +kernel
  obtain ⟨d, hd, hany⟩ := (Option.any_eq_true _ _).mp hcheck
  obtain ⟨f, hf, hfound⟩ := (Option.any_eq_true _ _).mp hany
  have h := eq_ok_some_of_join hd
  simp only [Bool.and_eq_true, beq_iff_eq] at hfound
  obtain ⟨⟨⟨hdoc, hrows⟩, hlength⟩, hlanguage⟩ := hfound
  exact ⟨d, f, h, hf, hdoc, hrows, hlength, hlanguage,
    (language_survives_iff henglish rfl h hf {} rfl (by decide) _).mpr hlanguage⟩

/-- A Norwegian feature. -/
def foreignSource : Text := "#language:no\nEgenskap: x\n".toList

/-- What is written of it, which is no English feature. -/
def foreignWritten : Text := "Egenskap: x\n\n".toList

theorem foreignWritten_not_read : ∃ d f,
    (Parser.parse { builder := ({} : DocumentBuilder) } .editing foreignSource).outcome =
        .ok (some d) ∧
      d.feature = some f ∧ f.language = "no".toList ∧ save {} d.draft = .ok foreignWritten ∧
      ∃ e, (Parser.parse { builder := ({} : DocumentBuilder) } .editing foreignWritten).outcome =
        .error e := by
  have hcheck : ((Parser.parse { builder := ({} : DocumentBuilder) } .editing
      foreignSource).outcome.toOption.join.any fun d => d.feature.any fun f =>
        f.language == "no".toList && (save {} d.draft).toOption == some foreignWritten) = true := by
    decide +kernel
  have hfails : (Parser.parse { builder := ({} : DocumentBuilder) } .editing
      foreignWritten).outcome.isOk = false := by
    decide +kernel
  obtain ⟨d, hd, hany⟩ := (Option.any_eq_true _ _).mp hcheck
  obtain ⟨f, hf, hfound⟩ := (Option.any_eq_true _ _).mp hany
  obtain ⟨hlanguage, hsave⟩ := (Bool.and_eq_true _ _).mp hfound
  refine ⟨d, f, eq_ok_some_of_join hd, hf, beq_iff_eq.mp hlanguage, ?_, ?_⟩
  · cases hcase : save {} d.draft with
    | error fault =>
        rw [hcase] at hsave
        cases hsave
    | ok text =>
        rw [hcase] at hsave
        exact congrArg _ (Option.some.inj (beq_iff_eq.mp hsave))
  · cases hcase : (Parser.parse { builder := ({} : DocumentBuilder) } .editing
        foreignWritten).outcome with
    | error e => exact ⟨e, rfl⟩
    | ok o =>
        rw [hcase] at hfails
        cases hfails

end Writer

end FeatureFile
