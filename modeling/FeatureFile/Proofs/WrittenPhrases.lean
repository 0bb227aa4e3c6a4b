import FeatureFile.Proofs.Collecting
import FeatureFile.Proofs.Relocation
import FeatureFile.Proofs.Rendering

/-!
# Phrases as they are written

What a writer makes of a legible part of a document is a phrase that stands for the same part, apart
from where it stands. There is one lemma for each sort of part, in the order in which they are made of
each other, and each says of its phrase that it is valid, that its free text is free where it stands,
and that its value is the part again.
-/

namespace FeatureFile

/-- All places are one. -/
def Location.forget (_ : Location) : Location := { line := 0, column := 0 }

/-! ## Lists -/

section Forall₂

variable {α β : Type} {r : α → β → Prop} {as : List α} {xs : List β}

theorem forall_mem_of_forall₂ {p : β → Prop} (h : List.Forall₂ r as xs)
    (himp : ∀ a ∈ as, ∀ x, r a x → p x) : ∀ x ∈ xs, p x := by
  induction h with
  | nil => exact List.forall_mem_nil _
  | cons hx _ ih =>
      obtain ⟨hfirst, hrest⟩ := List.forall_mem_cons.mp himp
      exact List.forall_mem_cons.mpr ⟨hfirst _ hx, ih hrest⟩

theorem eq_of_forall₂_toList {a : Option α} (h : List.Forall₂ r a.toList xs) :
    (a = none ∧ xs = []) ∨ ∃ b x, a = some b ∧ xs = [x] ∧ r b x := by
  cases a with
  | none =>
      cases h
      exact .inl ⟨rfl, rfl⟩
  | some b =>
      cases h with
      | cons hx hrest =>
          cases hrest
          exact .inr ⟨b, _, rfl, rfl, hx⟩

end Forall₂

namespace Text

theorem mem_join {sep : Text} {c : Char} {ts : List Text} (h : c ∈ join sep ts) :
    c ∈ sep ∨ ∃ t ∈ ts, c ∈ t := by
  induction ts with
  | nil => cases h
  | cons t ts ih =>
      cases ts with
      | nil => exact .inr ⟨t, List.mem_cons_self, h⟩
      | cons u ts =>
          rw [join, List.append_assoc, List.mem_append, List.mem_append] at h
          rcases h with h | h | h
          · exact .inr ⟨t, List.mem_cons_self, h⟩
          · exact .inl h
          · rcases ih h with h | ⟨v, hv, hc⟩
            · exact .inl h
            · exact .inr ⟨v, List.mem_cons_of_mem _ hv, hc⟩

end Text

/-! ## Tables -/

namespace Table

theorem widen_length {ws : List Nat} {ts : List Text} (h : ws.length = ts.length) :
    ∃ ws', widen ws ts = some ws' ∧ ws'.length = ts.length := by
  induction ts generalizing ws with
  | nil =>
      rw [List.length_nil, List.length_eq_zero_iff] at h
      subst h
      exact ⟨[], rfl, rfl⟩
  | cons t ts ih =>
      cases ws with
      | nil => cases h
      | cons w ws =>
          obtain ⟨ws', hws', hlength⟩ := ih (Nat.succ.inj h)
          refine ⟨max w t.length :: ws', ?_, congrArg (· + 1) hlength⟩
          rw [widen, hws']
          rfl

/-- The widths of the columns of a table with rows of one length. -/
theorem columnWidths_length {k : Nat} {rows : List (List Text)} (hne : rows ≠ [])
    (hrows : ∀ r ∈ rows, r.length = k) : ∃ ws, columnWidths rows = .ok ws ∧ ws.length = k := by
  have hall : ∀ rows : List (List Text), (∀ r ∈ rows, r.length = k) → ∀ ws : List Nat,
      ws.length = k → ∃ ws', widenAll ws rows = .ok ws' ∧ ws'.length = k := by
    intro rows
    induction rows with
    | nil => exact fun _ ws hws => ⟨ws, rfl, hws⟩
    | cons r rows ih =>
        intro hrows ws hws
        have hr := hrows r List.mem_cons_self
        obtain ⟨ws', hwider, hlength⟩ := widen_length (hws.trans hr.symm)
        rw [widenAll, hwider]
        exact ih (fun r hr => hrows r (List.mem_cons_of_mem _ hr)) ws' (hlength.trans hr)
  cases rows with
  | nil => exact absurd rfl hne
  | cons r rows =>
      refine hall (r :: rows) hrows (r.map List.length) ?_
      rw [List.length_map, hrows r List.mem_cons_self]

theorem newline_not_mem_escapeCell (v : Text) : '\n' ∉ escapeCell v := by
  intro h
  obtain ⟨c, _, hc⟩ := List.mem_flatMap.mp h
  rw [escapeChar] at hc
  split at hc
  · revert hc
    decide
  · split at hc
    · revert hc
      decide
    · next hne =>
        split at hc
        · revert hc
          decide
        · exact hne (List.mem_singleton.mp hc).symm

end Table

namespace Writer

theorem row_draft (r : Row) :
    row r.draft = .ok (r.cells.map fun c => Table.escapeCell c.value) := by
  exact collect_map (f := fun c => (Draft.need "value" c.value).map Table.escapeCell)
    (g := Cell.draft) (fun _ => rfl) r.cells

theorem newline_not_mem_rowText (widths : List Nat) (cells : List Text) :
    '\n' ∉ rowText widths (cells.map Table.escapeCell) := by
  intro h
  rw [rowText, List.cons_append, List.mem_cons, List.mem_append] at h
  rcases h with h | h | h
  · revert h
    decide
  · rcases Text.mem_join h with h | ⟨t, ht, h⟩
    · revert h
      decide
    · obtain ⟨w, v, hv, rfl⟩ : ∃ w v, v ∈ cells.map Table.escapeCell ∧ t = pad w v := by
        rw [← List.map_uncurry_zip_eq_zipWith] at ht
        obtain ⟨⟨w, v⟩, hmem, rfl⟩ := List.mem_map.mp ht
        exact ⟨w, v, (List.of_mem_zip hmem).2, rfl⟩
      rw [pad, List.mem_append] at h
      rcases h with h | h
      · obtain ⟨u, _, rfl⟩ := List.mem_map.mp hv
        exact Table.newline_not_mem_escapeCell u h
      · exact absurd (List.eq_of_mem_replicate h) (by decide)
  · revert h
    decide

end Writer

/-! ## Drafts of documents -/

namespace Writer

variable (w : Writer)

/-- A title and its description. -/
def heading (level : Nat) (keyword name : Text) (description : Option Text) : Written :=
  (w.title level (some keyword) (some name)).andThen (Writer.description description)

/-- A title, its steps, and a blank line. -/
def body (keyword name : Text) (description : Option Text) (steps : List Step) : Written :=
  ((w.heading 1 keyword name description).andThen
    (.all (steps.map fun s => w.step 2 s.draft))).andThen (.line [])

theorem tags_draft (level : Nat) (tag : Tag) (tags : List Tag) :
    w.tags level (some ((tag :: tags).map Tag.draft)) =
      w.line level (Text.join [' '] ((tag :: tags).map Tag.name)) := by
  change Written.given
    (collect (fun t => Draft.need "name" t.name) ((tag :: tags).map Tag.draft)) _ = _
  rw [collect_map (f := fun t => Draft.need "name" t.name) (g := Tag.draft) (fun _ => rfl)]
  rfl

theorem child_background (x : Background) :
    w.child 1 x.draft = w.body x.keyword x.name x.description x.steps := by
  simp [child, comment, tags, Background.draft, body, heading, Written.all, Written.andThen_assoc,
    Function.comp_def]

theorem child_scenario (x : Scenario) : w.child 1 (ScenarioDefinition.scenario x).draft =
    (w.tags 1 (some (x.tags.map Tag.draft))).andThen
      (w.body x.keyword x.name x.description x.steps) := by
  simp [child, comment, ScenarioDefinition.draft, body, heading, Written.all, Written.andThen_assoc,
    Function.comp_def]

theorem child_outline (x : ScenarioOutline) : w.child 1 (ScenarioDefinition.outline x).draft =
    (w.tags 1 (some (x.tags.map Tag.draft))).andThen
      ((w.body x.keyword x.name x.description x.steps).andThen
        (.all (x.examples.map fun e => (w.examples 1 e.draft).andThen (.line [])))) := by
  simp [child, comment, ScenarioDefinition.draft, body, heading, Written.all, Written.andThen_assoc,
    Function.comp_def]

theorem examples_draft (x : Examples) : (w.examples 1 x.draft).andThen (.line []) =
    (w.tags 1 (some (x.tags.map Tag.draft))).andThen
      (((w.heading 1 x.keyword x.name x.description).andThen
        (.all (x.table.toList.map fun t =>
          w.table 2 ((t.header :: t.body).map Row.draft)))).andThen (.line [])) := by
  have htable : w.examplesTable 2 x.draft =
      .all (x.table.toList.map fun t => w.table 2 ((t.header :: t.body).map Row.draft)) := by
    obtain ⟨tags, location, keyword, name, description, table⟩ := x
    cases table with
    | none => rfl
    | some t => exact (Written.andThen_empty _).symm
  rw [← htable]
  simp [examples, Examples.draft, heading, Written.all, Written.andThen_assoc]

theorem feature_draft (x : Feature) : w.feature x.draft =
    (w.tags 0 (some (x.tags.map Tag.draft))).andThen
      (((w.heading 0 x.keyword x.name x.description).andThen (.line [])).andThen
        ((Written.all (x.background.toList.map fun b => w.child 1 b.draft)).andThen
          (.all (x.scenarios.map fun s => w.child 1 s.draft)))) := by
  simp [feature, comment, Feature.draft, heading, Written.all, Written.andThen_assoc,
    Written.all_append, Function.comp_def]

end Writer

/-! ## Rows -/

/-- Rows with the same texts are the same apart from their places. -/
theorem Row.relocate_forget {r r' : Row} (h : r.cells.map Cell.value = r'.cells.map Cell.value) :
    r.relocate .forget = r'.relocate .forget := by
  have hcells : ∀ r : Row,
      r.relocate .forget = ⟨⟨0, 0⟩, (r.cells.map Cell.value).map (⟨⟨0, 0⟩, ·⟩)⟩ := by
    intro r
    rw [List.map_map]
    rfl
  rw [hcells, hcells, h]

section Phrases

variable {w : Writer} {level : Nat}

namespace Layout

open Written

/-- The table has these rows. -/
structure Table.Renders (rows : List Row) (x : Table) : Prop where
  rows : x.rows.map (Row.relocate .forget) = rows.map (Row.relocate .forget)
  valid : x.Valid

theorem row_lays (hlevel : level ≤ 2) {r : Row} {widths : List Nat}
    (hlength : widths.length = r.cells.length) (hne : r.cells ≠ [])
    (htrim : ∀ c ∈ r.cells, Text.trim c.value = c.value) :
    (w.line level (Writer.rowText widths (r.cells.map fun c => Table.escapeCell c.value))).Lays
      w.HasRoom (fun x : Leaf .tableRow => [x.token])
      fun x => (Node.rowOf x.token).relocate .forget = r.relocate .forget := by
  have hcells : (r.cells.map fun c => Table.escapeCell c.value) =
      (r.cells.map Cell.value).map Table.escapeCell := by
    rw [List.map_map]
    rfl
  rw [hcells]
  refine Lays.leaf hlevel .tableRow
    (fun t => (Node.rowOf t).relocate .forget = r.relocate .forget)
    (Text.trimLeft_eq_self (c := '|') rfl rfl) (Writer.newline_not_mem_rowText _ _)
    ⟨TokenKind.noConfusion, TokenKind.noConfusion⟩ fun margin hmargin => ?_
  have hlength : widths.length = (r.cells.map Cell.value).length := by rw [List.length_map, hlength]
  have hne : r.cells.map Cell.value ≠ [] := by rwa [ne_eq, List.map_eq_nil_iff]
  obtain ⟨items, hitems, hreads⟩ :=
    row_readsAs hmargin hlength hne (List.forall_mem_map.mpr htrim)
  refine ⟨_, rfl, hreads, fun t ht => Row.relocate_forget ?_⟩
  rw [← hitems, Node.rowOf, Node.itemsOf, ht, List.map_map]
  rfl

/-- A table is put together from its rows. -/
theorem Table.renders {k : Nat} {r : Row} {rows : List Row}
    (hk : ∀ r' ∈ r :: rows, r'.cells.length = k) {x : Leaf .tableRow} {xs : List (Leaf .tableRow)}
    (hx : (Node.rowOf x.token).relocate .forget = r.relocate .forget)
    (hxs : List.Forall₂ (fun r (y : Leaf .tableRow) =>
      (Node.rowOf y.token).relocate .forget = Row.relocate .forget r) rows xs) :
    Table.Renders (r :: rows) ⟨x, xs.map .row⟩ := by
  have hbody : Table.body ⟨x, xs.map .row⟩ = xs.map fun y => Node.rowOf y.token := by
    rw [Table.body, List.filterMap_map]
    exact congrFun List.filterMap_eq_map xs
  have hvalue : (Table.rows ⟨x, xs.map .row⟩).map (Row.relocate .forget) =
      (r :: rows).map (Row.relocate .forget) := by
    rw [Table.rows, hbody, List.map_cons, List.map_cons, List.map_map]
    exact congrArg₂ _ hx (map_eq_of_forall₂ hxs fun _ _ h => h)
  refine ⟨hvalue, unevenRow_eq_none (k := k) fun r' hr' => ?_⟩
  obtain ⟨r'', hr'', heq⟩ := List.mem_map.mp (hvalue ▸ List.mem_map_of_mem hr')
  have hcells := congrArg (fun r => r.cells.length) heq
  rw [← hk r'' hr'']
  simpa [Row.relocate] using hcells.symm

theorem table_lays (hlevel : level ≤ 2) (htables : w.support.tables = true) {rows : List Row}
    (h : Row.LegibleAll rows) :
    (w.table level (rows.map Row.draft)).Lays w.HasRoom (fun x => Part.tokensAll x.parts)
      (Table.Renders rows) := by
  obtain ⟨k, hk⟩ := exists_length_of_unevenRow h.even
  have hrows : collect Writer.row (rows.map Row.draft) =
      .ok (rows.map fun r => r.cells.map fun c => Table.escapeCell c.value) :=
    collect_map Writer.row_draft rows
  obtain ⟨widths, hwidths, hlength⟩ : ∃ widths,
      w.widths (rows.map fun r => r.cells.map fun c => Table.escapeCell c.value) = .ok widths ∧
        widths.length = k := by
    rw [Writer.widths, if_pos htables]
    refine Table.columnWidths_length (by rw [ne_eq, List.map_eq_nil_iff]; exact h.ne_nil) ?_
    refine List.forall_mem_map.mpr fun r hr => ?_
    rw [List.length_map, hk r hr]
  have hline : ∀ r ∈ rows, (w.line level
      (Writer.rowText widths (r.cells.map fun c => Table.escapeCell c.value))).Lays w.HasRoom
      (fun x : Leaf .tableRow => [x.token])
      fun x => (Node.rowOf x.token).relocate .forget = r.relocate .forget := fun r hr =>
    row_lays hlevel (hlength.trans (hk r hr).symm) (h.cells_ne_nil r hr) (h.trim r hr)
  rw [Writer.table, hrows, given, hwidths, given, List.map_map]
  cases rows with
  | nil => exact absurd rfl h.ne_nil
  | cons r rows =>
      refine ((hline r List.mem_cons_self).append (Lays.all rows fun r hr =>
        hline r (List.mem_cons_of_mem _ hr))).map (fun x => ⟨x.1, x.2.map .row⟩) ?_ ?_
      · rintro ⟨x, xs⟩ _
        rw [Table.parts, Part.tokensAll_cons, List.map_map, Part.tokensAll_map]
        rfl
      · exact fun x hx => Table.renders hk hx.1 hx.2

/-! ## Blank lines -/

/-- A blank line. -/
def Leaf.blank (number : Int) : Leaf .empty where
  token :=
    { number, line := some (written [] []),
      reading := some { kind := .empty, dialect := Dialect.english.name } }
  kind_eq := rfl

theorem Leaf.blank_told (number : Int) : (Leaf.blank number).token.Told :=
  .inr ⟨_, _, rfl, rfl, ⟨TokenKind.noConfusion, TokenKind.noConfusion⟩, blank_readsAs⟩

theorem Table.absorbs (rows : List Row) :
    Absorbs (fun x : Table => Part.tokensAll x.parts) (Table.Renders rows) := by
  intro x hx number
  have hrows : Table.rows ⟨x.first, x.rest ++ [.gap (.blank (.blank number))]⟩ = x.rows := by
    rw [Table.rows, Table.rows, Table.body, Table.body, List.filterMap_append]
    exact congrArg _ (List.append_nil _)
  refine ⟨⟨x.first, x.rest ++ [.gap (.blank (.blank number))]⟩, (Leaf.blank number).token, ?_, rfl,
    Leaf.blank_told number, ?_, ?_⟩
  · simp [Table.parts, TableLine.part, Gap.part, Leaf.part]
  · rw [hrows]
    exact hx.rows
  · rw [Table.Valid, hrows]
    exact hx.valid

/-! ## Steps -/

/-- The phrase stands for this step. -/
structure Step.Renders (s : FeatureFile.Step) (x : Step) : Prop where
  value : x.value.relocate .forget = s.relocate .forget
  valid : x.Valid
  spots : ∀ o, x.spots o = []

theorem argument_lays (hlevel : level ≤ 2) (htables : w.support.tables = true)
    {a : Option FeatureFile.Argument} (h : ∀ y ∈ a, y.Legible) :
    (w.argument level (a.map Argument.draft)).Lays w.HasRoom
      (fun xs : List Table => xs.flatMap fun x => Part.tokensAll x.parts)
      (List.Forall₂ (fun y x => (Argument.table x).value.relocate .forget = y.relocate .forget ∧
        x.Valid) a.toList) := by
  cases a with
  | none => exact Lays.nil.map (fun _ => []) (fun _ _ => rfl) fun _ _ => .nil
  | some y =>
      cases y with
      | docString d => exact (h _ rfl).elim
      | dataTable t =>
          have hwrite : w.argument level ((some (.dataTable t)).map Argument.draft) =
              w.table level (t.rows.map Row.draft) := by
            change (if Draft.dataTableType = Draft.dataTableType then
              w.table level (t.rows.map Row.draft) else {}) = _
            exact if_pos rfl
          rw [hwrite]
          refine (table_lays hlevel htables (h _ rfl)).map (fun x => [x]) (fun x _ => ?_) fun x hx => ?_
          · exact List.flatMap_singleton ..
          · refine .cons ⟨?_, hx.valid⟩ .nil
            have hrows := hx.rows
            simp only [Argument.value, FeatureFile.Argument.relocate, DataTable.relocate, hrows]
            rfl

theorem stepLine_lays (hlevel : level ≤ 2) {s : FeatureFile.Step} (h : s.Legible) :
    (w.line level (s.keyword ++ s.text)).Lays w.HasRoom (fun x : Leaf .stepLine => [x.token])
      fun x => Node.keywordOf x.token = s.keyword ∧ Node.textOf x.token = s.text := by
  obtain ⟨mark, hmark, word, hword, hkeyword⟩ := h.keyword
  rw [hkeyword]
  refine Lays.leaf hlevel .stepLine
    (fun t => Node.keywordOf t = mark ++ word ∧ Node.textOf t = s.text) ?_ ?_
    ⟨TokenKind.noConfusion, TokenKind.noConfusion⟩ fun margin hmargin => ?_
  · obtain ⟨c, hhead, hblank⟩ := step_head hmark hword s.text
    exact Text.trimLeft_eq_self hhead hblank
  · have hmarks : ∀ m ∈ Matcher.marks, '\n' ∉ m := by decide
    have hwords : ∀ v ∈ Dialect.english.steps, '\n' ∉ v := by decide
    rw [List.mem_append, List.mem_append, not_or, not_or]
    exact ⟨⟨hmarks _ hmark, hwords _ hword⟩, h.text.newline⟩
  · refine ⟨_, rfl, step_readsAs hmargin hmark hword h.text, fun t ht => ?_⟩
    rw [Node.keywordOf, Node.textOf, ht]
    exact ⟨rfl, rfl⟩

theorem step_lays (hlevel : level ≤ 2) (htables : w.support.tables = true) {s : FeatureFile.Step}
    (h : s.Legible) :
    (w.step level s.draft).Lays w.HasRoom (fun x : Step => x.part.tokens) (Step.Renders s) := by
  refine ((stepLine_lays hlevel h).append (argument_lays hlevel htables h.argument)).map
    (fun x => ⟨x.1, [], x.2.head?.map .table⟩) ?_ ?_
  · rintro ⟨x, xs⟩ ⟨_, hxs⟩
    rcases eq_of_forall₂_toList hxs with ⟨_, rfl⟩ | ⟨_, y, _, rfl, _⟩
    · rfl
    · simp [Step.part, Argument.part, Leaf.part]
  · rintro ⟨x, xs⟩ ⟨⟨hkeyword, htext⟩, hxs⟩
    rcases eq_of_forall₂_toList hxs with ⟨hnone, rfl⟩ | ⟨a, y, hsome, rfl, hy, hvalid⟩
    · refine ⟨?_, (fun y hy => by cases hy), fun o => rfl⟩
      simp only [Step.value, FeatureFile.Step.relocate, FeatureFile.Step.mk.injEq, hnone]
      exact ⟨rfl, hkeyword, htext, rfl⟩
    · refine ⟨?_, fun z hz => ?_, fun o => rfl⟩
      · simp only [Step.value, FeatureFile.Step.relocate, FeatureFile.Step.mk.injEq, hsome]
        exact ⟨rfl, hkeyword, htext, congrArg some hy⟩
      · cases hz
        exact hvalid

theorem Step.absorbs (s : FeatureFile.Step) :
    Absorbs (fun x : Step => x.part.tokens) (Step.Renders s) := by
  rintro ⟨line, gaps, argument⟩ ⟨hvalue, hvalid, hspots⟩ number
  -- What takes the blank line in is the argument, if there is one.
  cases argument with
  | none =>
      refine ⟨⟨line, gaps ++ [.blank (.blank number)], none⟩, (Leaf.blank number).token, ?_, rfl,
        Leaf.blank_told number, hvalue, hvalid, hspots⟩
      simp [Step.part, Gap.part, Leaf.part]
  | some y =>
      cases y with
      | table t =>
          obtain ⟨t', u, htokens, hu, htold, hrows, hvalid'⟩ :=
            Table.absorbs t.rows t ⟨rfl, hvalid _ rfl⟩ number
          have hparts : ∀ t : Table, (Step.part ⟨line, gaps, some (.table t)⟩).tokens =
              line.token :: (Part.tokensAll (gaps.map Gap.part) ++ Part.tokensAll t.parts) := by
            intro t
            simp [Step.part, Argument.part, Leaf.part]
          refine ⟨⟨line, gaps, some (.table t')⟩, u, ?_, hu, htold, ?_, ?_, fun _ => rfl⟩
          · beta_reduce at htokens ⊢
            rw [hparts, hparts, htokens, List.cons_append, List.append_assoc]
          · rw [← hvalue]
            simp only [Step.value, Argument.value, Option.map_some, FeatureFile.Step.relocate,
              FeatureFile.Argument.relocate, DataTable.relocate, hrows, Location.forget]
          · intro y hy
            cases hy
            exact hvalid'
      | docString d =>
          refine ⟨⟨line, gaps, some (.docString { d with gaps := d.gaps ++ [.blank (.blank number)] })⟩,
            (Leaf.blank number).token, ?_, rfl, Leaf.blank_told number, hvalue, ?_, hspots⟩
          · simp [Step.part, Argument.part, DocString.parts, Gap.part, Leaf.part]
          · intro y hy
            cases hy
            exact hvalid (.docString d) rfl

/-! ## Tags -/

theorem Tag.map_relocate_forget {ts us : List Tag} (h : ts.map Tag.name = us.map Tag.name) :
    ts.map (Tag.relocate .forget) = us.map (Tag.relocate .forget) := by
  have hnames : ∀ ts : List Tag,
      ts.map (Tag.relocate .forget) = (ts.map Tag.name).map (⟨⟨0, 0⟩, ·⟩) := by
    intro ts
    rw [List.map_map]
    rfl
  rw [hnames, hnames, h]

theorem tags_lays (hlevel : level ≤ 2) {tags : List Tag} (h : ∀ t ∈ tags, t.Legible) :
    (w.tags level (some (tags.map Tag.draft))).Lays w.HasRoom
      (fun xs => Part.tokensAll (tagParts xs))
      fun xs => (tagValues xs).map (Tag.relocate .forget) = tags.map (Tag.relocate .forget) := by
  cases tags with
  | nil => exact Lays.nil.map (fun _ => []) (fun _ _ => rfl) fun _ _ => rfl
  | cons tag tags =>
      -- All tags go on one line, whatever lines they have come from.
      have hnames : ∀ n ∈ (tag :: tags).map Tag.name, Text.IsTag n := List.forall_mem_map.mpr h
      have hne : (tag :: tags).map Tag.name ≠ [] := List.cons_ne_nil _ _
      rw [w.tags_draft]
      refine (Lays.leaf hlevel .tagLine (fun t => (Node.tagsOf t).map Tag.name =
        (tag :: tags).map Tag.name) ?_ ?_ ⟨TokenKind.noConfusion, TokenKind.noConfusion⟩
        fun margin hmargin => ?_).map
        (fun x => [⟨x, []⟩]) (fun x _ => ?_) fun x hx => ?_
      · obtain ⟨t, ht⟩ := Text.exists_join_tags (hnames _ List.mem_cons_self) (tags.map Tag.name)
        exact Text.trimLeft_eq_self (c := '@') (congrArg List.head? ht) rfl
      · intro hmem
        rcases Text.mem_join hmem with hmem | ⟨n, hn, hmem⟩
        · revert hmem
          decide
        · obtain ⟨p, rfl, hp, _⟩ := hnames n hn
          exact hp.newline (List.mem_of_ne_of_mem (by decide) hmem)
      · obtain ⟨items, hitems, hreads⟩ := tags_readsAs hmargin hne hnames
        refine ⟨_, rfl, hreads, fun t ht => ?_⟩
        rw [← hitems, Node.tagsOf, Node.itemsOf, ht, List.map_map]
        rfl
      · rfl
      · refine Tag.map_relocate_forget ?_
        rw [← hx, tagValues, List.flatMap_singleton]

/-! ## Titles and descriptions -/

/-- A line of free text. -/
def Leaf.text (number : Int) (t : Text) : Leaf .other where
  token :=
    { number, line := some (written [] t),
      reading := some { kind := .other, text := some t, dialect := Dialect.english.name } }
  kind_eq := rfl

/-- The phrase stands for a title and its description. -/
structure Head.Renders (b : Block) (keyword name : Text) (description : Option Text)
    (x : Head b.kind) : Prop where
  keyword : Node.keywordOf x.title.token = keyword
  name : Node.textOf x.title.token = name
  language : (x.title.token.reading.map Reading.dialect).getD [] = Dialect.english.name
  value : x.value = description
  valid : x.Valid
  spots : ∀ v ∈ x.spots b, Spot.Free v
  remarks : x.remarks = none

theorem text_lays {room : Prop} {t : Text} (h : '\n' ∉ t) :
    (Written.line t).Lays room (fun x : Leaf .other => [x.token])
      fun x => ∃ number, x = Leaf.text number t := by
  refine ⟨fun _ => rfl, fun _ => ⟨[written [] t], ?_, ?_, fun count => ?_⟩⟩
  · rw [List.flatten_singleton]
    rfl
  · rw [List.forall_mem_singleton]
    exact ⟨t, rfl, h⟩
  · refine ⟨Leaf.text (count + 1) t, rfl, ?_, _, rfl⟩
    rw [List.forall_mem_singleton]
    exact .inl rfl

theorem line_join {ts : List Text} (hne : ts ≠ []) :
    Written.line (Text.join ['\n'] ts) = Written.all (ts.map Written.line) := by
  induction ts with
  | nil => exact absurd rfl hne
  | cons t ts ih =>
      cases ts with
      | nil => exact (andThen_empty _).symm
      | cons u ts =>
          rw [List.map_cons, Written.all, ← ih (List.cons_ne_nil _ _), andThen, Text.join]
          simp [Written.line]

/-- A description is never the empty text, which would not be written. -/
theorem description_join {first : Text} {rest : List Text}
    (htrim : (first :: rest).rdropWhile List.isEmpty = first :: rest) :
    Writer.description (some (Text.join ['\n'] (first :: rest))) =
      Written.all ((first :: rest).map Written.line) := by
  rw [← line_join (List.cons_ne_nil _ _)]
  cases hjoin : Text.join ['\n'] (first :: rest) with
  | cons c cs => rfl
  | nil =>
      cases rest with
      | nil =>
          rw [show first = [] from hjoin] at htrim
          cases htrim
      | cons u rest => simp [Text.join] at hjoin

theorem Leaf.text_free {b : Block} {p : Phase} {t : Text} (hp : p ≠ .commented)
    (h : Line.Free (.block b p) t) (number : Int) :
    Spot.Free (.block b p, (Leaf.text number t).token) := ⟨b, p, t, rfl, hp, rfl, rfl, h⟩

/-- The lines of a description. -/
theorem description_lays {room : Prop} {b : Block} {description : Option Text}
    (h : ∀ d ∈ description, b.Describes d) :
    (Writer.description description).Lays room
      (fun xs : List (Leaf .other) => xs.flatMap fun x => [x.token])
      fun xs => ∀ title : Leaf b.kind, Head.value ⟨title, [], xs, none⟩ = description ∧
        Head.Valid ⟨title, [], xs, none⟩ ∧
          ∀ v ∈ Head.spots b ⟨title, [], xs, none⟩, Spot.Free v := by
  cases description with
  | none =>
      refine Lays.nil.map (fun _ => []) (fun _ _ => rfl) fun _ _ title => ⟨rfl, fun hne => ?_, ?_⟩
      · exact absurd rfl hne
      · exact List.forall_mem_nil _
  | some d =>
      obtain ⟨first, rest, rfl, hfirst, hrest, htrim⟩ := h d rfl
      rw [description_join htrim]
      refine (Lays.all (first :: rest) fun t ht => text_lays ?_).map (fun xs => xs)
        (fun _ _ => rfl) fun xs hxs title => ?_
      · rcases List.mem_cons.mp ht with rfl | ht
        · exact hfirst.newline
        · exact (hrest t ht).newline
      · have htexts : Head.texts ⟨title, [], xs, none⟩ = first :: rest := by
          rw [Head.texts, map_eq_of_forall₂ (g := id) hxs, List.map_id]
          · exact htrim
          · rintro t _ ⟨number, rfl⟩
            rfl
        -- The first line is read below the title, and the others below the first.
        cases hxs with
        | @cons _ y _ ys hy hys =>
            refine ⟨?_, fun _ => ?_, List.forall_mem_cons.mpr ⟨?_, List.forall_mem_map.mpr ?_⟩⟩
            · exact congrArg (fun ts => some (Text.join ['\n'] ts)) htexts
            · rw [htexts]
              exact List.cons_ne_nil _ _
            · obtain ⟨number, rfl⟩ := hy
              exact Leaf.text_free Phase.noConfusion hfirst number
            · refine forall_mem_of_forall₂ hys ?_
              rintro t ht _ ⟨number, rfl⟩
              exact Leaf.text_free Phase.noConfusion (hrest t ht) number

theorem title_lays (hlevel : level ≤ 2) {b : Block} {keyword name : Text}
    (hkeyword : keyword ∈ b.keywords) (hname : name.Tidy) :
    (w.title level (some keyword) (some name)).Lays w.HasRoom (fun x : Leaf b.kind => [x.token])
      fun x => Node.keywordOf x.token = keyword ∧ Node.textOf x.token = name ∧
        (x.token.reading.map Reading.dialect).getD [] = Dialect.english.name := by
  obtain ⟨c, hhead, hblank, _⟩ := b.keywords_head keyword hkeyword
  have hnewline : ∀ w ∈ b.keywords, '\n' ∉ w := by cases b <;> decide
  have hkind : b.kind ≠ .language ∧ b.kind ≠ .comment := by
    cases b <;> exact ⟨TokenKind.noConfusion, TokenKind.noConfusion⟩
  refine Lays.leaf hlevel b.kind (fun t => Node.keywordOf t = keyword ∧ Node.textOf t = name ∧
    (t.reading.map Reading.dialect).getD [] = Dialect.english.name) ?_ ?_ hkind
    fun margin hmargin => ?_
  · refine Text.trimLeft_eq_self (c := c) ?_ hblank
    cases keyword with
    | nil => cases hhead
    | cons d ds => exact hhead
  · rw [List.mem_append, List.mem_append, not_or, not_or]
    exact ⟨⟨hnewline _ hkeyword, by decide⟩, hname.newline⟩
  · refine ⟨_, rfl, title_readsAs hmargin b hkeyword hname, fun t ht => ?_⟩
    rw [Node.keywordOf, Node.textOf, ht]
    exact ⟨rfl, rfl, rfl⟩

theorem heading_lays (hlevel : level ≤ 2) {b : Block} {keyword name : Text}
    {description : Option Text} (h : b.Titles keyword name description) :
    (w.heading level keyword name description).Lays w.HasRoom
      (fun x : Head b.kind => Part.tokensAll x.parts)
      (Head.Renders b keyword name description) := by
  refine ((title_lays hlevel h.keyword h.name).append (description_lays h.description)).map
    (fun x => ⟨x.1, [], x.2, none⟩) ?_ ?_
  · rintro ⟨x, xs⟩ _
    cases xs with
    | nil => rfl
    | cons y ys => simp [Head.parts, Head.description, Leaf.part, Part.tokensAll_map]
  · rintro ⟨x, xs⟩ ⟨⟨hkeyword, hname, hlanguage⟩, hxs⟩
    obtain ⟨hvalue, hvalid, hspots⟩ := hxs x
    exact ⟨hkeyword, hname, hlanguage, hvalue, hvalid, hspots, rfl⟩

theorem Head.absorbs (b : Block) (keyword name : Text) (description : Option Text) :
    Absorbs (fun x : Head b.kind => Part.tokensAll x.parts)
      (Head.Renders b keyword name description) := by
  rintro ⟨title, blanks, lines, remarks⟩ ⟨hkeyword, hname, hlanguage, hvalue, hvalid, hspots, hnone⟩
    number
  obtain rfl : remarks = none := hnone
  cases lines with
  | nil =>
      refine ⟨⟨title, blanks ++ [.blank number], [], none⟩, (Leaf.blank number).token, ?_, rfl,
        Leaf.blank_told number, hkeyword, hname, hlanguage, hvalue, hvalid, hspots, rfl⟩
      simp [Head.parts, Head.description, Leaf.part]
  | cons y ys =>
      -- Below a description a blank line is free text, and it does not count at the end.
      have htexts : Head.texts ⟨title, blanks, y :: ys ++ [.text number []], none⟩ =
          Head.texts ⟨title, blanks, y :: ys, none⟩ := by
        change List.rdropWhile List.isEmpty ((y :: ys ++ [Leaf.text number []]).map _) = _
        rw [List.map_append]
        exact List.rdropWhile_concat_pos _ _ _ rfl
      have hsplit : Head.spots b ⟨title, blanks, y :: ys ++ [.text number []], none⟩ =
          Head.spots b ⟨title, blanks, y :: ys, none⟩ ++
            [(.block b .described, (Leaf.text number []).token)] := by
        simp [Head.spots]
      refine ⟨⟨title, blanks, y :: ys ++ [.text number []], none⟩, (Leaf.text number []).token, ?_,
        rfl, .inl rfl, hkeyword, hname, hlanguage, ?_, ?_, ?_, rfl⟩
      · simp [Head.parts, Head.description, Leaf.part]
      · rw [← hvalue]
        exact congrArg (fun ts => some (Text.join ['\n'] ts)) htexts
      · intro _
        rw [htexts]
        exact hvalid (List.cons_ne_nil _ _)
      · have hfree : Line.Free (.block b .described) [] := by
          refine ⟨List.not_mem_nil, rfl, ?_⟩
          cases b <;> decide
        rw [hsplit, List.forall_mem_append]
        refine ⟨hspots, List.forall_mem_singleton.mpr ?_⟩
        exact Leaf.text_free Phase.noConfusion hfree number

/-! ## Blocks -/

theorem body_lays (htables : w.support.tables = true) {b : Block}
    {keyword name : Text} {description : Option Text} {steps : List FeatureFile.Step}
    (htitles : b.Titles keyword name description) (hsteps : ∀ s ∈ steps, s.Legible) :
    (w.body keyword name description steps).Lays w.HasRoom
      (fun x : Head b.kind × List Step =>
        Part.tokensAll x.1.parts ++ x.2.flatMap fun y => y.part.tokens)
      fun x => Head.Renders b keyword name description x.1 ∧
        List.Forall₂ Step.Renders steps x.2 := by
  refine ((heading_lays (by omega) htitles).append (Lays.all steps fun s hs =>
    step_lays le_rfl htables (hsteps s hs))).blank ?_
  exact Absorbs.pair (Head.absorbs b keyword name description) Step.absorbs steps

theorem Background.tokens_part (x : Background) : x.part.tokens =
    Part.tokensAll x.head.parts ++ x.steps.flatMap fun y => y.part.tokens := by
  simp [Background.part, Part.tokensAll_map]

theorem Examples.tokens_part (x : Examples) : x.part.tokens = Part.tokensAll (tagParts x.tags) ++
    (Part.tokensAll x.head.parts ++ x.table.toList.flatMap fun t => Part.tokensAll t.parts) := by
  simp [Examples.part, Part.tokensAll_map]

theorem Scenario.tokens_plain (tags : List TagLine) (head : Head .scenarioLine) (steps : List Step) :
    (Scenario.plain tags head steps).part.tokens = Part.tokensAll (tagParts tags) ++
      (Part.tokensAll head.parts ++ steps.flatMap fun y => y.part.tokens) := by
  simp [Scenario.part, Part.tokensAll_map]

theorem Scenario.tokens_outline (tags : List TagLine) (head : Head .scenarioOutlineLine)
    (steps : List Step) (examples : List Examples) :
    (Scenario.outline tags head steps examples).part.tokens = Part.tokensAll (tagParts tags) ++
      ((Part.tokensAll head.parts ++ steps.flatMap fun y => y.part.tokens) ++
        examples.flatMap fun y => y.part.tokens) := by
  simp [Scenario.part, Part.tokensAll_map]

theorem Feature.tokens_part (x : Feature) (h : x.header = none) : x.part.tokens =
    Part.tokensAll (tagParts x.tags) ++ (Part.tokensAll x.head.parts ++
      ((x.background.toList.flatMap fun y => y.part.tokens) ++
        x.scenarios.flatMap fun y => y.part.tokens)) := by
  simp [Feature.part, Feature.headerParts, h, Part.tokensAll_map]

/-- A phrase that stands for this part, apart from places, that is valid, and in which free text is
free where it stands. -/
structure Renders {α β : Type} (value : α → β) (valid : α → Prop) (spots : α → List (State × Token))
    (forget : β → β) (p : β) (x : α) : Prop where
  value : forget (value x) = forget p
  valid : valid x
  spots : ∀ v ∈ spots x, Spot.Free v

abbrev Background.Renders : FeatureFile.Background → Background → Prop :=
  Layout.Renders Background.value Background.Valid Background.spots (Background.relocate .forget)

abbrev Examples.Renders : FeatureFile.Examples → Examples → Prop :=
  Layout.Renders Examples.value Examples.Valid Examples.spots (Examples.relocate .forget)

abbrev Scenario.Renders : ScenarioDefinition → Scenario → Prop :=
  Layout.Renders Scenario.value Scenario.Valid Scenario.spots (ScenarioDefinition.relocate .forget)

abbrev Feature.Renders : FeatureFile.Feature → Feature → Prop :=
  Layout.Renders Feature.value Feature.Valid Feature.spots (Feature.relocate .forget)

section Lists

variable {α β : Type} {value : α → β} {valid : α → Prop} {spots : α → List (State × Token)}
  {forget : β → β} {ps : List β} {xs : List α}

theorem Renders.values (h : List.Forall₂ (Renders value valid spots forget) ps xs) :
    (xs.map value).map forget = ps.map forget := by
  rw [List.map_map]
  exact map_eq_of_forall₂ h fun _ _ hx => hx.value

theorem Renders.forall_valid (h : List.Forall₂ (Renders value valid spots forget) ps xs) :
    ∀ x ∈ xs, valid x :=
  forall_mem_of_forall₂ h fun _ _ _ hx => hx.valid

theorem Renders.free (h : List.Forall₂ (Renders value valid spots forget) ps xs) :
    ∀ v ∈ xs.flatMap spots, Spot.Free v := by
  intro v hv
  obtain ⟨x, hx, hv⟩ := List.mem_flatMap.mp hv
  exact forall_mem_of_forall₂ h (fun _ _ _ hx => hx.spots) x hx v hv

end Lists

/-- What is the same for all blocks with steps. -/
theorem steps_value {steps : List FeatureFile.Step} {xs : List Step}
    (h : List.Forall₂ Step.Renders steps xs) :
    (xs.map Step.value).map (Step.relocate .forget) = steps.map (Step.relocate .forget) ∧
      (∀ x ∈ xs, x.Valid) ∧ ∀ o, xs.flatMap (Step.spots o) = [] := by
  refine ⟨?_, forall_mem_of_forall₂ h fun _ _ _ hx => hx.valid, fun o => ?_⟩
  · rw [List.map_map]
    exact map_eq_of_forall₂ h fun _ _ hx => hx.value
  · rw [List.flatMap_eq_nil_iff]
    exact forall_mem_of_forall₂ h fun _ _ _ hx => hx.spots o

theorem background_lays (htables : w.support.tables = true) {p : FeatureFile.Background}
    (h : p.Legible) :
    (w.child 1 p.draft).Lays w.HasRoom (fun x : Background => x.part.tokens)
      (Background.Renders p) := by
  rw [w.child_background]
  refine (body_lays htables h.titles h.steps).map (fun x => ⟨x.1, x.2⟩) ?_ ?_
  · exact fun x _ => Background.tokens_part ⟨x.1, x.2⟩
  · rintro ⟨x, xs⟩ ⟨hx, hxs⟩
    obtain ⟨hsteps, hvalid, hspots⟩ := steps_value hxs
    refine ⟨?_, ⟨hx.valid, hvalid⟩, ?_⟩
    · simp only [Background.value, FeatureFile.Background.relocate, FeatureFile.Background.mk.injEq]
      exact ⟨rfl, hx.keyword, hx.name, hx.value, hsteps⟩
    · rw [Background.spots, hspots, List.append_nil]
      exact hx.spots

theorem examples_lays (htables : w.support.tables = true) {p : FeatureFile.Examples}
    (h : p.Legible) :
    ((w.examples 1 p.draft).andThen (.line [])).Lays w.HasRoom (fun x : Examples => x.part.tokens)
      (Examples.Renders p) := by
  have hbody : (((w.heading 1 p.keyword p.name p.description).andThen
      (Written.all (p.table.toList.map fun t =>
        w.table 2 ((t.header :: t.body).map Row.draft)))).andThen (.line [])).Lays w.HasRoom
      (fun x : Head Block.examples.kind × List Table =>
        Part.tokensAll x.1.parts ++ x.2.flatMap fun t => Part.tokensAll t.parts)
      fun x => Head.Renders .examples p.keyword p.name p.description x.1 ∧
        List.Forall₂ (fun t y => Table.Renders (t.header :: t.body) y) p.table.toList x.2 := by
    refine ((heading_lays (by omega) h.titles).append (Lays.all _ fun t ht =>
      table_lays le_rfl htables (h.table t (Option.mem_toList.mp ht)))).blank ?_
    exact Absorbs.pair (Head.absorbs .examples _ _ _)
      (fun t : ExamplesTable => Table.absorbs (t.header :: t.body)) _
  rw [w.examples_draft]
  refine ((tags_lays (by omega) h.tags).append hbody).map (fun x => ⟨x.1, x.2.1, x.2.2.head?⟩) ?_ ?_
  · rintro ⟨tags, x, xs⟩ ⟨_, _, hxs⟩
    rcases eq_of_forall₂_toList hxs with ⟨_, rfl⟩ | ⟨_, y, _, rfl, _⟩ <;>
      exact Examples.tokens_part ⟨tags, x, _⟩
  · rintro ⟨tags, x, xs⟩ ⟨htags, hx, hxs⟩
    -- Without a table the blank line has gone to the title.
    rcases eq_of_forall₂_toList hxs with ⟨hnone, rfl⟩ | ⟨t, y, hsome, rfl, hy⟩
    · refine ⟨?_, ⟨hx.valid, fun y hy => by cases hy⟩, hx.spots⟩
      simp only [Examples.value, FeatureFile.Examples.relocate, FeatureFile.Examples.mk.injEq, hnone]
      exact ⟨htags, rfl, hx.keyword, hx.name, hx.value, rfl⟩
    · refine ⟨?_, ⟨hx.valid, fun z hz => ?_⟩, hx.spots⟩
      · obtain ⟨hheader, hbody⟩ := List.cons.inj hy.rows
        simp only [Examples.value, FeatureFile.Examples.relocate, FeatureFile.Examples.mk.injEq, hsome]
        refine ⟨htags, rfl, hx.keyword, hx.name, hx.value, congrArg some ?_⟩
        exact congrArg₂ ExamplesTable.mk hheader hbody
      · cases hz
        exact hy.valid

theorem plain_lays (htables : w.support.tables = true) {p : FeatureFile.Scenario} (h : p.Legible) :
    (w.child 1 (ScenarioDefinition.scenario p).draft).Lays w.HasRoom
      (fun x : Scenario => x.part.tokens) (Scenario.Renders (.scenario p)) := by
  rw [w.child_scenario]
  refine ((tags_lays (by omega) h.tags).append (body_lays htables h.titles h.steps)).map
    (fun x => .plain x.1 x.2.1 x.2.2) ?_ ?_
  · exact fun x _ => Scenario.tokens_plain x.1 x.2.1 x.2.2
  · rintro ⟨tags, x, xs⟩ ⟨htags, hx, hxs⟩
    obtain ⟨hsteps, hvalid, hspots⟩ := steps_value hxs
    refine ⟨?_, ⟨hx.valid, hvalid⟩, ?_⟩
    · simp only [Scenario.value, ScenarioDefinition.relocate, FeatureFile.Scenario.relocate,
        ScenarioDefinition.scenario.injEq, FeatureFile.Scenario.mk.injEq]
      exact ⟨htags, rfl, hx.keyword, hx.name, hx.value, hsteps⟩
    · change ∀ v ∈ x.spots .scenario ++ xs.flatMap (Step.spots .scenario), Spot.Free v
      rw [hspots, List.append_nil]
      exact hx.spots

theorem outline_lays (htables : w.support.tables = true) {p : ScenarioOutline} (h : p.Legible) :
    (w.child 1 (ScenarioDefinition.outline p).draft).Lays w.HasRoom
      (fun x : Scenario => x.part.tokens) (Scenario.Renders (.outline p)) := by
  rw [w.child_outline]
  refine ((tags_lays (by omega) h.tags).append ((body_lays htables h.titles h.steps).append
    (Lays.all p.examples fun e he => examples_lays htables (h.examples e he)))).map
    (fun x => .outline x.1 x.2.1.1 x.2.1.2 x.2.2) ?_ ?_
  · exact fun x _ => Scenario.tokens_outline x.1 x.2.1.1 x.2.1.2 x.2.2
  · rintro ⟨tags, ⟨x, xs⟩, ys⟩ ⟨htags, ⟨hx, hxs⟩, hys⟩
    obtain ⟨hsteps, hvalid, hspots⟩ := steps_value hxs
    refine ⟨?_, ⟨hx.valid, hvalid, Renders.forall_valid hys⟩, ?_⟩
    · simp only [Scenario.value, ScenarioDefinition.relocate, ScenarioOutline.relocate,
        ScenarioDefinition.outline.injEq, ScenarioOutline.mk.injEq]
      exact ⟨htags, rfl, hx.keyword, hx.name, hx.value, hsteps, Renders.values hys⟩
    · change ∀ v ∈ x.spots .outline ++ (xs.flatMap (Step.spots .outline) ++
        ys.flatMap Examples.spots), Spot.Free v
      rw [hspots, List.nil_append, List.forall_mem_append]
      exact ⟨hx.spots, Renders.free hys⟩

theorem scenario_lays (htables : w.support.tables = true) {p : ScenarioDefinition} (h : p.Legible) :
    (w.child 1 p.draft).Lays w.HasRoom (fun x : Scenario => x.part.tokens) (Scenario.Renders p) := by
  cases p with
  | scenario p => exact plain_lays htables h
  | outline p => exact outline_lays htables h

theorem feature_lays (htables : w.support.tables = true) {p : FeatureFile.Feature} (h : p.Legible) :
    (w.feature p.draft).Lays w.HasRoom (fun x : Feature => x.part.tokens) (Feature.Renders p) := by
  have hbackground := Lays.all p.background.toList fun b hb =>
    background_lays (w := w) htables (h.background b (Option.mem_toList.mp hb))
  have hscenarios := Lays.all p.scenarios fun s hs =>
    scenario_lays (w := w) htables (h.scenarios s hs)
  rw [w.feature_draft]
  refine ((tags_lays (by omega) h.tags).append (((heading_lays (by omega) h.titles).blank
    (Head.absorbs .feature _ _ _)).append (hbackground.append hscenarios))).map
    (fun x => ⟨none, x.1, x.2.1, x.2.2.1.head?, x.2.2.2⟩) ?_ ?_
  · rintro ⟨tags, x, xs, ys⟩ ⟨_, _, hxs, _⟩
    rcases eq_of_forall₂_toList hxs with ⟨_, rfl⟩ | ⟨_, y, _, rfl, _⟩ <;>
      exact Feature.tokens_part ⟨none, tags, x, _, ys⟩ rfl
  · rintro ⟨tags, x, xs, ys⟩ ⟨htags, hx, hxs, hys⟩
    -- There is at most one background, so that nothing is lost by taking the first.
    obtain ⟨hhead, hbackground⟩ : xs.head?.toList = xs ∧
        (xs.head?.map Background.value).map (Background.relocate .forget) =
          p.background.map (Background.relocate .forget) := by
      rcases eq_of_forall₂_toList hxs with ⟨hnone, rfl⟩ | ⟨b, y, hsome, rfl, hy⟩
      · exact ⟨rfl, hnone ▸ rfl⟩
      · exact ⟨rfl, hsome ▸ congrArg some hy.value⟩
    refine ⟨?_, ⟨hx.valid, fun y hy => ?_, Renders.forall_valid hys⟩, ?_⟩
    · simp only [Feature.value, FeatureFile.Feature.relocate, FeatureFile.Feature.mk.injEq]
      exact ⟨htags, rfl, hx.language.trans h.language.symm, hx.keyword, hx.name, hx.value,
        hbackground, Renders.values hys⟩
    · exact Renders.forall_valid hxs y (List.mem_of_mem_head? hy)
    · rw [Feature.spots, List.forall_mem_append, List.forall_mem_append, hhead]
      exact ⟨hx.spots, Renders.free hxs, Renders.free hys⟩

end Layout

end Phrases

end FeatureFile
