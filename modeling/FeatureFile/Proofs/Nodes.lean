import FeatureFile.Document.Builder
import Mathlib.Data.List.TakeWhile

/-!
# Nodes that can be closed

Turning a node into what it stands for looks for parts inside it: a step for its step line, a table
for a first row, a scenario definition for a scenario. Each of these looks can fail, and the code
that builds documents has a fault for each failure. This module says when none of them does.

Two things are needed. A node must be *sound*: what is found under the label of a token must be a
token, and what is found under the label of a rule that stays a node must be such a node, sound
and complete itself. And it must be *complete*: it must hold the part that closing its rule asks
for, which `Rule.needs` lists, with two additions: the first separator of a doc string must be one
that opens it, and a description must have a line that is not empty.

A node that is sound and complete has only one way left to be refused: as a table whose rows
differ in length (`Node.toItem_cases`).
-/

namespace FeatureFile

/-- The labels one of which is needed inside a rule when it closes; none is needed if there are
none. -/
def Rule.needs : Rule → List Label
  | .step => [.token .stepLine]
  | .docString => [.token .docStringSeparator]
  | .dataTable | .examplesTable => [.token .tableRow]
  | .background => [.token .backgroundLine]
  | .scenario => [.token .scenarioLine]
  | .scenarioOutline => [.token .scenarioOutlineLine]
  | .examples => [.token .examplesLine]
  | .description => [.token .other]
  | .scenarioDefinition => [.rule .scenario, .rule .scenarioOutline]
  | .examplesDefinition => [.rule .examples]
  | .root | .document | .feature | .featureHeader | .tags | .named _ => []

/-- Does the rule stay a node when it closes? -/
def Rule.staysNode : Rule → Bool
  | .root | .featureHeader | .scenario | .scenarioOutline | .examples | .tags => true
  | _ => false

/-- Is it the rule of a table? -/
def Rule.isTable : Rule → Bool
  | .dataTable | .examplesTable => true
  | _ => false

theorem Rule.label_of_staysNode {r : Rule} (h : r.staysNode = true) : r.label = .rule r := by
  cases r with
  | root | featureHeader | scenario | scenarioOutline | examples | tags => decide +kernel
  | _ => cases h

/-- A node that holds what closing its rule asks for. -/
structure Node.Complete (n : Node) : Prop where
  needed : n.rule.needs = [] ∨ ∃ i ∈ n.items, i.label ∈ n.rule.needs
  opener : n.rule = .docString → ∀ t, n.first (.token .docStringSeparator) =
    some (.token .docStringSeparator t) → (t.reading.bind Reading.text).isSome
  filled : n.rule = .description → ∃ t, .token .other t ∈ n.items ∧ Node.textOf t ≠ []

/-- Is it a node that has no result of its own? -/
def NodeItem.isNode : NodeItem → Bool
  | .node _ _ => true
  | _ => false

/-- An item that is what its label says, in depth. -/
inductive NodeItem.Sound : NodeItem → Prop where
  | part (i : NodeItem) (hi : i.isNode = false) : Sound i
  | node (r : Rule) (items : List NodeItem) (hr : r.staysNode = true)
      (hitems : ∀ i ∈ items, i.Sound) (hcomplete : Node.Complete { rule := r, items }) :
      Sound (.node r items)

/-- A node all of whose items are sound. -/
def Node.Sound (n : Node) : Prop := ∀ i ∈ n.items, i.Sound

namespace NodeItem

variable {i : NodeItem}

theorem Sound.token_of_label {k : TokenKind} (h : i.Sound) (hl : i.label = .token k) :
    ∃ t, i = .token k t := by
  cases h with
  | part i hi =>
      cases i with
      | token kind t =>
          cases hl
          exact ⟨t, rfl⟩
      | node r items => cases hi
      | _ => cases hl
  | node r items hr =>
      rw [label, Rule.label_of_staysNode hr] at hl
      cases hl

theorem Sound.node_of_label {r : Rule} (h : i.Sound) (hr : r.staysNode = true)
    (hl : i.label = .rule r) :
    ∃ items, i = .node r items ∧ Node.Sound { rule := r, items } ∧
      Node.Complete { rule := r, items } := by
  cases h with
  | part i hi =>
      cases i with
      | node r items => cases hi
      | _ => cases hl <;> cases hr
  | node q items hq hitems hcomplete =>
      rw [label, Rule.label_of_staysNode hq] at hl
      cases hl
      exact ⟨items, rfl, hitems, hcomplete⟩

theorem Sound.document_of_label (h : i.Sound) (hl : i.label = .rule .document) :
    ∃ f, i = .document f := by
  cases h with
  | part i hi =>
      cases i with
      | document f => exact ⟨f, rfl⟩
      | node r items => cases hi
      | _ => cases hl
  | node q items hq =>
      rw [label, Rule.label_of_staysNode hq] at hl
      cases hl
      cases hq

end NodeItem

namespace Node

variable {n : Node}

/-! ## Looking into a sound node -/

theorem first_of_label {i : NodeItem} {l : Label} (h : n.first l = some i) :
    i ∈ n.items ∧ i.label = l := by
  refine ⟨List.mem_of_find?_eq_some h, ?_⟩
  simpa using List.find?_some h

theorem exists_first {i : NodeItem} {l : Label} (hi : i ∈ n.items) (hl : i.label = l) :
    ∃ j, n.first l = some j := by
  rw [← Option.isSome_iff_exists, first, List.find?_isSome]
  exact ⟨i, hi, by simpa using hl⟩

theorem Sound.token_ok {i : NodeItem} {k : TokenKind} (h : n.Sound) (hi : i ∈ n.items)
    (hl : i.label = .token k) :
    ∃ t, n.first (.token k) = some (.token k t) ∧ n.token k = .ok t := by
  obtain ⟨j, hj⟩ := exists_first hi hl
  obtain ⟨hmem, hlabel⟩ := first_of_label hj
  obtain ⟨t, rfl⟩ := (h j hmem).token_of_label hlabel
  exact ⟨t, hj, by rw [token, hj]⟩

theorem tokensOf_ok {k : TokenKind} {items : List NodeItem} (h : ∀ i ∈ items, i.Sound) :
    ∃ ts, tokensOf k items = .ok ts ∧ ∀ t, .token k t ∈ items → t ∈ ts := by
  induction items with
  | nil => exact ⟨[], rfl, fun _ ht => by cases ht⟩
  | cons i is ih =>
      obtain ⟨ts, hts, hmem⟩ := ih fun j hj => h j (List.mem_cons_of_mem _ hj)
      by_cases hl : i.label = .token k
      · obtain ⟨t, rfl⟩ := (h i List.mem_cons_self).token_of_label hl
        refine ⟨t :: ts, ?_, ?_⟩
        · unfold tokensOf
          rw [if_pos hl, hts]
          rfl
        · intro u hu
          rcases List.mem_cons.mp hu with heq | hu
          · cases heq
            exact List.mem_cons_self
          · exact List.mem_cons_of_mem _ (hmem u hu)
      · refine ⟨ts, ?_, ?_⟩
        · unfold tokensOf
          rw [if_neg hl, hts]
        · intro u hu
          rcases List.mem_cons.mp hu with heq | hu
          · rw [← heq] at hl
            exact absurd rfl hl
          · exact hmem u hu

theorem Sound.child_of_eq {r : Rule} {c : Node} (h : n.Sound) (hr : r.staysNode = true)
    (hc : n.child? r = some c) : c.rule = r ∧ c.Sound ∧ c.Complete := by
  unfold child? at hc
  split at hc
  · rename_i rule items hfirst
    cases hc
    obtain ⟨hmem, hl⟩ := first_of_label hfirst
    obtain ⟨items', heq, hsound, hcomplete⟩ := (h _ hmem).node_of_label hr hl
    cases heq
    exact ⟨rfl, hsound, hcomplete⟩
  · cases hc

theorem Sound.exists_child {r : Rule} {i : NodeItem} (h : n.Sound) (hr : r.staysNode = true)
    (hi : i ∈ n.items) (hl : i.label = .rule r) : ∃ c, n.child? r = some c := by
  obtain ⟨j, hj⟩ := exists_first hi hl
  obtain ⟨hmem, hlabel⟩ := first_of_label hj
  obtain ⟨items, rfl, _⟩ := (h j hmem).node_of_label hr hlabel
  exact ⟨_, by rw [child?, hj]⟩

theorem Sound.tags_ok (h : n.Sound) : ∃ ts, n.tags = .ok ts := by
  unfold tags
  split
  · exact ⟨[], rfl⟩
  · rename_i c hc
    obtain ⟨_, hsound, _⟩ := h.child_of_eq rfl hc
    obtain ⟨ts, hts, _⟩ := tokensOf_ok (k := .tagLine) hsound
    refine ⟨ts.flatMap tagsOf, ?_⟩
    rw [tokens, hts]
    rfl

/-- A node with a row has a first row, or its rows are uneven. -/
theorem Sound.rows_cases (h : n.Sound) (hrow : ∃ i ∈ n.items, i.label = .token .tableRow) :
    (∃ e, n.rows = .error (.error e)) ∨ ∃ row rows, n.rows = .ok (row :: rows) := by
  obtain ⟨ts, hts, hmem⟩ := tokensOf_ok (k := .tableRow) h
  obtain ⟨i, hi, hl⟩ := hrow
  obtain ⟨t, rfl⟩ := (h i hi).token_of_label hl
  cases huneven : unevenRow (ts.map rowOf) with
  | some e =>
      refine .inl ⟨e, ?_⟩
      rw [rows, tokens, hts]
      simp only [bind, Except.bind, Except.mapError, huneven]
  | none =>
      obtain ⟨row, rows, hrows⟩ : ∃ row rows, ts.map rowOf = row :: rows :=
        List.exists_cons_of_ne_nil (List.ne_nil_of_mem (List.mem_map_of_mem (hmem t hi)))
      refine .inr ⟨row, rows, ?_⟩
      rw [Node.rows, tokens, hts, ← hrows]
      simp only [bind, Except.bind, Except.mapError, huneven]

/-! ## Closing -/

theorem Complete.needed_of_ne (h : n.Complete) (hne : n.rule.needs ≠ []) :
    ∃ i ∈ n.items, i.label ∈ n.rule.needs :=
  h.needed.resolve_left hne

theorem Complete.token {r : Rule} {k : TokenKind} (hsound : n.Sound) (h : n.Complete)
    (hr : n.rule = r) (hk : r.needs = [.token k]) :
    ∃ t, n.first (.token k) = some (.token k t) ∧ n.token k = .ok t := by
  obtain ⟨i, hi, hl⟩ := h.needed_of_ne (by rw [hr, hk]; exact List.cons_ne_nil _ _)
  rw [hr, hk, List.mem_singleton] at hl
  exact hsound.token_ok hi hl

theorem toStep_ok (hsound : n.Sound) (h : n.Complete) (hr : n.rule = .step) :
    ∃ x, n.toStep = .ok x := by
  obtain ⟨t, _, ht⟩ := h.token hsound hr rfl
  rw [toStep, ht]
  exact ⟨_, rfl⟩

theorem toBackground_ok (hsound : n.Sound) (h : n.Complete) (hr : n.rule = .background) :
    ∃ x, n.toBackground = .ok x := by
  obtain ⟨t, _, ht⟩ := h.token hsound hr rfl
  rw [toBackground, ht]
  exact ⟨_, rfl⟩

theorem toDocString_ok (hsound : n.Sound) (h : n.Complete) (hr : n.rule = .docString) :
    ∃ x, n.toDocString = .ok x := by
  obtain ⟨t, hfirst, _⟩ := h.token hsound hr rfl
  obtain ⟨text, htext⟩ := Option.isSome_iff_exists.mp (h.opener hr t hfirst)
  obtain ⟨ts, hts, _⟩ := tokensOf_ok (k := .other) hsound
  rw [toDocString, hfirst]
  simp only [htext, tokens, hts]
  exact ⟨_, rfl⟩

theorem exists_tableRow (h : n.Complete) (hneeds : n.rule.needs = [.token .tableRow]) :
    ∃ i ∈ n.items, i.label = .token .tableRow := by
  obtain ⟨i, hi, hl⟩ := h.needed_of_ne (by rw [hneeds]; exact List.cons_ne_nil _ _)
  rw [hneeds, List.mem_singleton] at hl
  exact ⟨i, hi, hl⟩

theorem toScenarioDefinition_ok (hsound : n.Sound) (h : n.Complete)
    (hr : n.rule = .scenarioDefinition) : ∃ x, n.toScenarioDefinition = .ok x := by
  obtain ⟨tags, htags⟩ := hsound.tags_ok
  rw [toScenarioDefinition, htags]
  simp only [bind, Except.bind]
  cases hscenario : n.child? .scenario with
  | some c =>
      obtain ⟨hrule, hcsound, hcomplete⟩ := hsound.child_of_eq rfl hscenario
      obtain ⟨t, _, ht⟩ := hcomplete.token hcsound hrule rfl
      simp only [ht]
      exact ⟨_, rfl⟩
  | none =>
      -- No scenario was found, so it is a scenario outline that makes the node complete.
      obtain ⟨i, hi, hl⟩ := h.needed_of_ne (by rw [hr]; exact List.cons_ne_nil _ _)
      rw [hr] at hl
      have houtline : i.label = .rule .scenarioOutline := by
        rcases List.mem_cons.mp hl with hl | hl
        · obtain ⟨c, hc⟩ := hsound.exists_child rfl hi hl
          rw [hscenario] at hc
          cases hc
        · exact List.mem_singleton.mp hl
      obtain ⟨c, hc⟩ := hsound.exists_child rfl hi houtline
      obtain ⟨hrule, hcsound, hcomplete⟩ := hsound.child_of_eq rfl hc
      obtain ⟨t, _, ht⟩ := hcomplete.token hcsound hrule rfl
      simp only [hc, ht]
      exact ⟨_, rfl⟩

theorem toExamples_ok (hsound : n.Sound) (h : n.Complete) (hr : n.rule = .examplesDefinition) :
    ∃ x, n.toExamples = .ok x := by
  obtain ⟨tags, htags⟩ := hsound.tags_ok
  obtain ⟨i, hi, hl⟩ := h.needed_of_ne (by rw [hr]; exact List.cons_ne_nil _ _)
  rw [hr] at hl
  obtain ⟨c, hc⟩ := hsound.exists_child rfl hi (List.mem_singleton.mp hl)
  obtain ⟨hrule, hcsound, hcomplete⟩ := hsound.child_of_eq rfl hc
  obtain ⟨t, _, ht⟩ := hcomplete.token hcsound hrule rfl
  rw [toExamples, htags]
  simp only [bind, Except.bind, hc, ht]
  exact ⟨_, rfl⟩

theorem toDescription_ok (hsound : n.Sound) (h : n.Complete) (hr : n.rule = .description) :
    ∃ x, n.toDescription = .ok x := by
  obtain ⟨ts, hts, hmem⟩ := tokensOf_ok (k := .other) hsound
  obtain ⟨t, ht, htext⟩ := h.filled hr
  have hne : ((ts.map textOf).reverse.dropWhile List.isEmpty).reverse ≠ [] := by
    intro hnil
    have hall := List.dropWhile_eq_nil_iff.mp (List.reverse_eq_nil_iff.mp hnil)
    have hblank := hall (textOf t) (List.mem_reverse.mpr (List.mem_map_of_mem (hmem t ht)))
    exact htext (List.isEmpty_iff.mp hblank)
  rw [toDescription, tokens, hts]
  simp only [bind, Except.bind]
  exact ⟨_, rfl⟩

theorem toFeature_ok (hsound : n.Sound) : ∃ x, n.toFeature = .ok x := by
  rw [toFeature]
  cases hc : n.child? .featureHeader with
  | none => exact ⟨_, rfl⟩
  | some c =>
      obtain ⟨_, hcsound, _⟩ := hsound.child_of_eq rfl hc
      obtain ⟨tags, htags⟩ := hcsound.tags_ok
      simp only [bind, Except.bind, htags]
      cases hfirst : c.first (.token .featureLine) with
      | none => exact ⟨_, rfl⟩
      | some i =>
          obtain ⟨hmem, hl⟩ := first_of_label hfirst
          obtain ⟨t, rfl⟩ := (hcsound i hmem).token_of_label hl
          exact ⟨_, rfl⟩

theorem sound_node (hsound : n.Sound) (h : n.Complete) (hr : n.rule.staysNode = true) :
    (NodeItem.node n.rule n.items).Sound ∧
      (NodeItem.node n.rule n.items).label = .rule n.rule :=
  ⟨.node n.rule n.items hr hsound h, Rule.label_of_staysNode hr⟩

/-- A node that is sound and complete becomes a sound item under the label of its rule, or is
refused as a table with uneven rows. -/
theorem toItem_cases (hsound : n.Sound) (h : n.Complete) (hnamed : ∀ name, n.rule ≠ .named name) :
    (∃ item, n.toItem = .ok item ∧ item.Sound ∧ item.label = .rule n.rule) ∨
      (n.rule.isTable = true ∧ ∃ e, n.toItem = .error (.error e)) := by
  cases hr : n.rule with
  | step =>
      obtain ⟨x, hx⟩ := toStep_ok hsound h hr
      exact .inl ⟨.step x, by simp only [toItem, hr, hx]; rfl, .part _ rfl, rfl⟩
  | docString =>
      obtain ⟨x, hx⟩ := toDocString_ok hsound h hr
      exact .inl ⟨.docString x, by simp only [toItem, hr, hx]; rfl, .part _ rfl, rfl⟩
  | dataTable =>
      rcases hsound.rows_cases (exists_tableRow h (by rw [hr]; rfl)) with
        ⟨e, he⟩ | ⟨row, rows, hrows⟩
      · exact .inr ⟨rfl, e, by simp only [toItem, hr, toDataTable, he]; rfl⟩
      · refine .inl ⟨.dataTable ⟨row.location, row :: rows⟩, ?_, .part _ rfl, rfl⟩
        simp only [toItem, hr, toDataTable, hrows]
        rfl
  | background =>
      obtain ⟨x, hx⟩ := toBackground_ok hsound h hr
      exact .inl ⟨.background x, by simp only [toItem, hr, hx]; rfl, .part _ rfl, rfl⟩
  | scenarioDefinition =>
      obtain ⟨x, hx⟩ := toScenarioDefinition_ok hsound h hr
      exact .inl ⟨.scenarioDefinition x, by simp only [toItem, hr, hx]; rfl, .part _ rfl, rfl⟩
  | examplesDefinition =>
      obtain ⟨x, hx⟩ := toExamples_ok hsound h hr
      exact .inl ⟨.examples x, by simp only [toItem, hr, hx]; rfl, .part _ rfl, rfl⟩
  | examplesTable =>
      rcases hsound.rows_cases (exists_tableRow h (by rw [hr]; rfl)) with
        ⟨e, he⟩ | ⟨row, rows, hrows⟩
      · exact .inr ⟨rfl, e, by simp only [toItem, hr, toExamplesTable, he]; rfl⟩
      · refine .inl ⟨.examplesTable ⟨row, rows⟩, ?_, .part _ rfl, rfl⟩
        simp only [toItem, hr, toExamplesTable, hrows]
        rfl
  | description =>
      obtain ⟨x, hx⟩ := toDescription_ok hsound h hr
      exact .inl ⟨.description x, by simp only [toItem, hr, hx]; rfl, .part _ rfl, rfl⟩
  | feature =>
      obtain ⟨x, hx⟩ := toFeature_ok hsound
      exact .inl ⟨.feature x, by simp only [toItem, hr, hx]; rfl, .part _ rfl, rfl⟩
  | document => exact .inl ⟨.document n.feature?, by simp only [toItem, hr], .part _ rfl, rfl⟩
  | named name => exact absurd hr (hnamed name)
  | root | featureHeader | scenario | scenarioOutline | examples | tags =>
      have hnode := sound_node hsound h (by rw [hr]; rfl)
      refine .inl ⟨.node n.rule n.items, ?_, hnode.1, ?_⟩
      · simp only [toItem, hr]
      · rw [← hr]
        exact hnode.2

/-! ## Refusing -/

/-- A table is refused for its first uneven row, and other nodes are not refused with an error. -/
theorem toItem_error {r : Refusal} (h : n.toItem = .error r) :
    (∃ f, r = .fault f) ∨ n.rule.isTable = true ∧
      ∃ ts e, n.tokens .tableRow = .ok ts ∧ unevenRow (ts.map rowOf) = some e ∧ r = .error e := by
  have hpart : ∀ {α : Type} {x : Except Fault α} {f : α → NodeItem},
      (x.map f).mapError Refusal.fault = .error r → ∃ f, r = .fault f := by
    intro α x f hx
    cases x with
    | ok a => cases hx
    | error fault =>
        cases hx
        exact ⟨fault, rfl⟩
  have htable : ∀ {α : Type} {table : List Row → Except Refusal α} {f : α → NodeItem},
      (∀ rows, table rows = .error r → ∃ f, r = .fault f) →
      (n.rows >>= table).map f = .error r → (∃ f, r = .fault f) ∨ ∃ ts e,
        n.tokens .tableRow = .ok ts ∧ unevenRow (ts.map rowOf) = some e ∧ r = .error e := by
    intro α table f hmade hx
    rw [rows] at hx
    cases hts : n.tokens .tableRow with
    | error fault =>
        rw [hts] at hx
        cases hx
        exact .inl ⟨fault, rfl⟩
    | ok ts =>
        rw [hts] at hx
        cases huneven : unevenRow (ts.map rowOf) with
        | some e =>
            simp only [bind, Except.bind, Except.mapError, huneven] at hx
            cases hx
            exact .inr ⟨ts, e, rfl, huneven, rfl⟩
        | none =>
            simp only [bind, Except.bind, Except.mapError, huneven] at hx
            cases hrows : table (ts.map rowOf) with
            | error refusal =>
                rw [hrows] at hx
                cases hx
                exact .inl (hmade _ hrows)
            | ok a =>
                rw [hrows] at hx
                cases hx
  cases hrule : n.rule <;> simp only [toItem, hrule] at h
  case dataTable | examplesTable =>
      refine (htable ?_ h).imp_right (And.intro rfl)
      rintro (_ | ⟨row, rows⟩) hmade
      · cases hmade
        exact ⟨_, rfl⟩
      · cases hmade
  case document | root | featureHeader | scenario | scenarioOutline | examples | tags | named =>
    cases h
  all_goals exact .inl (hpart h)

/-! ## Adding -/

theorem Sound.add {item : NodeItem} (h : n.Sound) (hitem : item.Sound) : (n.add item).Sound := by
  intro i hi
  rcases List.mem_append.mp hi with hi | hi
  · exact h i hi
  · rw [List.mem_singleton.mp hi]
    exact hitem

theorem Complete.add (h : n.Complete) (item : NodeItem) : (n.add item).Complete where
  needed := by
    rcases h.needed with hnil | ⟨i, hi, hl⟩
    · exact .inl hnil
    · exact .inr ⟨i, List.mem_append_left _ hi, hl⟩
  opener := by
    intro hr t hfirst
    change n.rule = .docString at hr
    obtain ⟨i, hi, hl⟩ := h.needed_of_ne (by rw [hr]; exact List.cons_ne_nil _ _)
    rw [hr] at hl
    obtain ⟨j, hj⟩ := exists_first hi (List.mem_singleton.mp hl)
    have hsame : (n.add item).first (.token .docStringSeparator) = some j := by
      unfold first at hj ⊢
      rw [Node.add, List.find?_append, hj]
      rfl
    rw [hsame, ← hj] at hfirst
    exact h.opener hr t hfirst
  filled := by
    intro hr
    obtain ⟨t, ht, htext⟩ := h.filled hr
    exact ⟨t, List.mem_append_left _ ht, htext⟩

theorem complete_of_needs_nil {r : Rule} (h : r.needs = []) : Node.Complete { rule := r } where
  needed := .inl h
  opener := by
    rintro rfl
    cases h
  filled := by
    rintro rfl
    cases h

theorem complete_add_token {r : Rule} {k : TokenKind} {t : Token}
    (h : r.needs = [] ∨ .token k ∈ r.needs)
    (hopener : r = .docString → (t.reading.bind Reading.text).isSome)
    (hfilled : r = .description → textOf t ≠ []) :
    (Node.add { rule := r } (.token k t)).Complete where
  needed := h.imp_right fun hk => ⟨.token k t, List.mem_singleton_self _, hk⟩
  opener := by
    intro hr u hfirst
    obtain ⟨hmem, _⟩ := first_of_label hfirst
    cases List.mem_singleton.mp hmem
    exact hopener hr
  filled := by
    intro hr
    change r = .description at hr
    have hk : k = .other := by
      rw [hr] at h
      rcases h with h | h
      · cases h
      · cases List.mem_singleton.mp h
        rfl
    subst hk
    exact ⟨t, List.mem_singleton_self _, hfilled hr⟩

end Node

/-! ## Refusals of the builder -/

theorem unevenRow_eq_some {rows : List Row} {e : ParseError} (h : unevenRow rows = some e) :
    ∃ r ∈ rows, e = .placed r.location.place .unevenTable := by
  cases rows with
  | nil => cases h
  | cons first rows =>
      obtain ⟨r, hr, rfl⟩ := Option.map_eq_some_iff.mp h
      exact ⟨r, List.mem_cons_of_mem _ (List.mem_of_find?_eq_some hr), rfl⟩

/-- Apart from faults, the document builder refuses to close a node. -/
theorem DocumentBuilder.receive_refused {b : DocumentBuilder} {c : Call} {r : Refusal}
    (h : (receive c b).2 = some r) :
    (∃ f, r = .fault f) ∨ ∃ n ∈ b.stack, n.toItem = .error r := by
  have hadd : ∀ {b : DocumentBuilder} {item : NodeItem},
      (b.add item).2 = some r → ∃ f, r = .fault f := by
    intro b item hr
    unfold add at hr
    split at hr <;> cases hr
    exact ⟨_, rfl⟩
  cases c with
  | opened rule => cases h
  | read t =>
      change (b.read t).2 = some r at h
      unfold read at h
      split at h
      · cases h
        exact .inl ⟨_, rfl⟩
      · split at h
        · cases h
        · exact .inl (hadd h)
  | closed rule =>
      change b.close.2 = some r at h
      unfold close at h
      split at h
      · cases h
        exact .inl ⟨_, rfl⟩
      · cases h
        exact .inl ⟨_, rfl⟩
      · rename_i node top below hstack
        simp only [] at h
        split at h
        · rename_i refusal hitem
          cases h
          exact .inr ⟨node, by rw [hstack]; exact List.mem_cons_self, hitem⟩
        · exact .inl (hadd h)

/-- What the document builder refuses with an error is a table with an uneven row. -/
theorem DocumentBuilder.refused_uneven {b : DocumentBuilder} {c : Call} {r : Refusal}
    (h : (receive c b).2 = some r) :
    (∃ f, r = .fault f) ∨ ∃ n ∈ b.stack, ∃ ts e, n.tokens .tableRow = .ok ts ∧
      unevenRow (ts.map Node.rowOf) = some e ∧ r = .error e := by
  rcases receive_refused h with hf | ⟨n, hn, hitem⟩
  · exact .inl hf
  · exact (Node.toItem_error hitem).imp_right fun htable => ⟨n, hn, htable.2⟩

/-- Does the error say that a part of the document cannot be built? -/
def ParseError.isMalformed (e : ParseError) : Bool :=
  match e.cause with
  | .malformed _ => true
  | _ => false

end FeatureFile
