import FeatureFile.Proofs.EvenTables
import FeatureFile.Proofs.Outcomes
import Mathlib.Data.List.Forall2

/-!
# Tables and their errors

A table is what is handed to the builder between the opening and the closing of its rule, as far as
it is rows. This module reads tables off the calls alone, without a builder (`Call.tables`), and shows
that the document builder refuses exactly the ragged ones among them, each when it is closed and for
its first row that is out of line.

A refusal comes in the middle of the calls of a move, which go on behind it. The node of the table has
left the stack by then, so that the rules that are open are those of the state, refused table or not;
and tables are never open but innermost (`State.path_dropLast`). So at any time the rows collected from
the calls are the rows in the innermost node, if that is a table, and there are none otherwise
(`DocumentBuilder.Collects`).
-/

namespace FeatureFile

/-! ## Tables of a sequence of calls -/

/-- A table: its rule and its rows. -/
structure RawTable where
  rule : Rule
  rows : List Token
  deriving Repr, DecidableEq

/-- The tables in the calls so far: those that have been closed, and the one that is open. -/
structure Tally where
  current : Option RawTable := none
  tables : List RawTable := []
  deriving Repr, DecidableEq

namespace Tally

/-- Takes a call. -/
def take (tally : Tally) : Call → Tally
  | .opened r => if r.isTable then { tally with current := some { rule := r, rows := [] } } else tally
  | .read t =>
    if t.kind? = some .tableRow then
      { tally with current := tally.current.map fun x => { x with rows := x.rows ++ [t] } }
    else tally
  | .closed r =>
    match tally.current with
    | some x => if x.rule = r then { tables := tally.tables ++ [x] } else tally
    | none => tally

/-- Takes calls in turn. -/
def takeAll (tally : Tally) (cs : List Call) : Tally := cs.foldl take tally

theorem takeAll_append (tally : Tally) (cs ds : List Call) :
    tally.takeAll (cs ++ ds) = (tally.takeAll cs).takeAll ds := List.foldl_append

end Tally

/-- The tables that are opened and closed in a sequence of calls. -/
def Call.tables (cs : List Call) : List RawTable := (Tally.takeAll {} cs).tables

/-- The number of cells of a row. -/
def Token.width (t : Token) : Nat := (Node.itemsOf t).length

/-- Has some row not as many cells as the first? -/
def RawTable.ragged (x : RawTable) : Bool :=
  match x.rows with
  | [] => false
  | first :: rest => rest.any fun t => t.width != first.width

/-- The first row that has not as many cells as the first row of all. -/
def RawTable.OutOfLine (x : RawTable) (t : Token) : Prop :=
  ∃ first before after, x.rows = first :: (before ++ t :: after) ∧
    (∀ u ∈ before, u.width = first.width) ∧ t.width ≠ first.width

/-- The error that a table is refused with. -/
def RawTable.error? (x : RawTable) : Option ParseError := unevenRow (x.rows.map Node.rowOf)

theorem Node.rowOf_width (t : Token) : (Node.rowOf t).cells.length = t.width := List.length_map _

theorem RawTable.error?_eq_some {x : RawTable} {e : ParseError} (h : x.error? = some e) :
    x.ragged = true ∧ ∃ t, x.OutOfLine t ∧ e = .placed t.location.place .unevenTable := by
  unfold error? at h
  unfold ragged OutOfLine
  cases hrows : x.rows with
  | nil =>
      rw [hrows] at h
      cases h
  | cons first rest =>
      rw [hrows, List.map_cons, unevenRow, List.find?_map, Option.map_map] at h
      obtain ⟨t, ht, rfl⟩ := Option.map_eq_some_iff.mp h
      obtain ⟨hne, before, after, rfl, hbefore⟩ := List.find?_eq_some_iff_append.mp ht
      simp only [Function.comp_apply, Node.rowOf_width, bne_iff_ne, ne_eq] at hne
      refine ⟨?_, t, ⟨first, before, after, rfl, ?_, hne⟩, rfl⟩
      · rw [List.any_eq_true]
        exact ⟨t, by simp, by simpa using hne⟩
      · intro u hu
        simpa [Node.rowOf_width] using hbefore u hu

theorem RawTable.ragged_of_error?_eq_none {x : RawTable} (h : x.error? = none) :
    x.ragged = false := by
  unfold error? at h
  unfold ragged
  cases hrows : x.rows with
  | nil => rfl
  | cons first rest =>
      rw [hrows, List.map_cons, unevenRow, Option.map_eq_none_iff, List.find?_map,
        Option.map_eq_none_iff, List.find?_eq_none] at h
      rw [List.any_eq_false]
      intro t ht
      simpa [Node.rowOf_width] using h t ht

/-- The errors of tables are those of the ragged ones. -/
theorem RawTable.forall₂_errors (xs : List RawTable) :
    List.Forall₂ (fun x e => ∃ t, RawTable.OutOfLine x t ∧
      e = ParseError.placed t.location.place .unevenTable)
      (xs.filter ragged) (xs.filterMap error?) := by
  induction xs with
  | nil => exact .nil
  | cons x xs ih =>
      cases herror : x.error? with
      | none =>
          rw [List.filterMap_cons_none herror,
            List.filter_cons_of_neg (by rw [ragged_of_error?_eq_none herror]; exact Bool.false_ne_true)]
          exact ih
      | some e =>
          obtain ⟨hragged, hout⟩ := error?_eq_some herror
          rw [List.filterMap_cons_some herror, List.filter_cons_of_pos hragged]
          exact .cons hout ih

/-! ## Where tables can be open -/

/-- None of the rules is that of a table. -/
def Rule.NoTable (rs : List Rule) : Prop := ∀ r ∈ rs, r.isTable = false

instance (rs : List Rule) : Decidable (Rule.NoTable rs) :=
  inferInstanceAs (Decidable (∀ r ∈ rs, r.isTable = false))

/-- A table has no rules inside it. -/
theorem State.path_dropLast (s : State) : Rule.NoTable s.path.dropLast := by
  revert s
  exact State.forall_of_all (by decide)

/-- Where the input may not end, no table is open. -/
theorem State.noTable_of_not_eof (s : State) :
    (∀ a ∈ s.moves, a.kind ≠ .eof) → Rule.NoTable s.path := by
  revert s
  exact State.forall_of_all (by decide)

theorem Node.tokensOf_concat {kind : TokenKind} {items : List NodeItem} {ts : List Token}
    (h : tokensOf kind items = .ok ts) (k : TokenKind) (t : Token) :
    tokensOf kind (items ++ [.token k t]) = .ok (if k = kind then ts ++ [t] else ts) := by
  induction items generalizing ts with
  | nil =>
      cases h
      by_cases hk : k = kind
      · simp [tokensOf, NodeItem.label, hk, Except.map]
      · simp [tokensOf, NodeItem.label, hk]
  | cons i is ih =>
      rw [List.cons_append]
      unfold tokensOf at h ⊢
      split
      · next hl =>
          rw [if_pos hl] at h
          split at h
          · cases hrest : tokensOf kind is with
            | error fault =>
                rw [hrest] at h
                cases h
            | ok us =>
                rw [hrest] at h
                cases h
                rw [ih hrest]
                split <;> rfl
          · cases h
      · next hl =>
          rw [if_neg hl] at h
          exact ih h

namespace DocumentBuilder

variable {b : DocumentBuilder} {tally : Tally}

/-- The table that is open in the calls is the innermost node, with the same rows, and else no table
is open. -/
inductive Collects : Option RawTable → DocumentBuilder → Prop where
  | outside {b : DocumentBuilder} (h : Rule.NoTable b.rules) : Collects none b
  | inside {b : DocumentBuilder} (x : RawTable) (top : Node) (below : List Node)
      (hx : x.rule.isTable = true) (hstack : b.stack = top :: below) (htop : top.rule = x.rule)
      (hrows : top.tokens .tableRow = .ok x.rows)
      (hbelow : Rule.NoTable (below.map Node.rule)) : Collects (some x) b

/-- What calls do to the tables agrees with what they do to the builder: the errors of its refusals
are those of the tables that are closed. -/
structure Agrees (tally : Tally) (b : DocumentBuilder) (cs : List Call) : Prop where
  collects : Collects (tally.takeAll cs).current (Builder.feed cs b).1
  errors : ∃ closed, (tally.takeAll cs).tables = tally.tables ++ closed ∧
    (Builder.feed cs b).2.flatMap Refusal.toErrors = closed.filterMap RawTable.error?

theorem Agrees.nil (h : Collects tally.current b) : Agrees tally b [] :=
  ⟨h, [], (List.append_nil _).symm, rfl⟩

theorem Agrees.append {cs ds : List Call} (h : Agrees tally b cs)
    (h' : Agrees (tally.takeAll cs) (Builder.feed cs b).1 ds) : Agrees tally b (cs ++ ds) := by
  obtain ⟨closed, htables, herrors⟩ := h.errors
  obtain ⟨closed', htables', herrors'⟩ := h'.errors
  refine ⟨?_, closed ++ closed', ?_, ?_⟩
  · rw [Tally.takeAll_append, Builder.feed_append]
    exact h'.collects
  · rw [Tally.takeAll_append, htables', htables, List.append_assoc]
  · rw [Builder.feed_append, List.flatMap_append, herrors, herrors', List.filterMap_append]

/-- A call that closes no table. -/
theorem Agrees.of_call {c : Call} (htables : (tally.take c).tables = tally.tables)
    (h : Collects (tally.take c).current (Builder.receive c b).1)
    (hquiet : ∀ r, (Builder.receive c b).2 = some r → r.toErrors = []) : Agrees tally b [c] := by
  refine ⟨h, [], ?_, ?_⟩
  · rw [List.append_nil]
    exact htables
  · rw [Builder.feed_cons_snd, Builder.feed_nil, List.append_nil, List.filterMap_nil]
    cases hr : (Builder.receive c b).2 with
    | none => rfl
    | some r => simpa using hquiet r hr

theorem Collects.current_eq_none {o : Option RawTable} (h : Collects o b)
    (hrules : Rule.NoTable b.rules) : o = none := by
  cases h with
  | outside => rfl
  | inside x top below hx hstack htop =>
      have hmem : x.rule ∈ b.rules := by
        rw [rules, hstack, ← htop]
        simp
      rw [hrules _ hmem] at hx
      cases hx

/-! ## Opening and reading -/

theorem Agrees.opened {rs : List Rule} (h : Collects tally.current b)
    (hrules : Rule.NoTable (b.rules ++ rs).dropLast) : Agrees tally b (rs.map .opened) := by
  induction rs generalizing b tally with
  | nil => exact .nil h
  | cons r rs ih =>
      have hnone : Rule.NoTable b.rules := by
        intro q hq
        refine hrules q ?_
        rw [List.dropLast_append_of_ne_nil (List.cons_ne_nil r rs)]
        exact List.mem_append_left _ hq
      have hcurrent := h.current_eq_none hnone
      have hcollects : Collects (tally.take (.opened r)).current
          (Builder.receive (.opened r) b).1 := by
        rw [Tally.take]
        split
        · next hr =>
            refine .inside _ { rule := r } b.stack hr rfl rfl rfl ?_
            intro q hq
            refine hnone q ?_
            rw [rules, List.mem_reverse]
            exact hq
        · next hr =>
            rw [hcurrent]
            refine .outside ?_
            rw [rules_opened]
            intro q hq
            rcases List.mem_append.mp hq with hq | hq
            · exact hnone q hq
            · rw [List.mem_singleton.mp hq]
              simpa using hr
      have htables : (tally.take (.opened r)).tables = tally.tables := by
        rw [Tally.take]
        split <;> rfl
      refine (Agrees.of_call htables hcollects ?_).append (ih hcollects ?_)
      · intro _ hr
        cases hr
      · rw [Builder.feed_cons_fst, Builder.feed_nil, rules_opened, List.append_assoc]
        exact hrules

theorem read_refused {t : Token} {r : Refusal} (h : (b.read t).2 = some r) :
    ∃ f, r = .fault f := by
  unfold DocumentBuilder.read at h
  split at h
  · cases h
    exact ⟨_, rfl⟩
  · split at h
    · cases h
    · unfold add at h
      split at h <;> cases h
      exact ⟨_, rfl⟩

theorem Agrees.read (h : Collects tally.current b) (t : Token) : Agrees tally b [.read t] := by
  refine .of_call ?_ ?_ ?_
  · rw [Tally.take]
    split <;> rfl
  · generalize hcurrent : tally.current = current at h
    cases h with
    | outside hnone =>
        have hstill : (tally.take (.read t)).current = none := by
          rw [Tally.take]
          split
          · simp only [hcurrent, Option.map_none]
          · exact hcurrent
        rw [hstill]
        refine .outside ?_
        rw [rules_read]
        exact hnone
    | inside x top below hx hstack htop hrows hbelow =>
        change Collects _ (b.read t).1
        rw [Tally.take, Token.kind?, DocumentBuilder.read]
        cases hreading : t.reading with
        | none =>
            simp only [Option.map_none, reduceCtorEq, if_false, hcurrent]
            exact .inside x top below hx hstack htop hrows hbelow
        | some reading =>
            simp only [Option.map_some, Option.some.injEq]
            by_cases hcomment : reading.kind = .comment
            · simp only [hcomment, reduceCtorEq, if_false, if_true, hcurrent]
              exact .inside x top below hx hstack htop hrows hbelow
            · simp only [hcomment, if_false, add, hstack]
              have hadded := Node.tokensOf_concat hrows reading.kind t
              split
              · next hkind =>
                  rw [hkind, if_pos rfl] at hadded
                  rw [hcurrent, hkind]
                  exact .inside _ _ below hx rfl htop hadded hbelow
              · next hkind =>
                  rw [if_neg hkind] at hadded
                  rw [hcurrent]
                  exact .inside x _ below hx rfl htop hadded hbelow
  · intro r hr
    obtain ⟨f, rfl⟩ := read_refused hr
    rfl

/-! ## Closing -/

/-- Closing is refused if the innermost node is, whichever rule is meant. -/
theorem close_innermost {pre : List Rule} {r : Rule} (hrules : b.rules = pre ++ [r])
    (hpre : pre ≠ []) (q : Rule) : ∃ node below, b.stack = node :: below ∧ node.rule = r ∧
      ∀ refusal, (Builder.receive (.closed q) b).2 = some refusal ↔
        node.toItem = .error refusal := by
  have hmap : b.stack.map Node.rule = r :: pre.reverse := by
    have hreverse := congrArg List.reverse hrules
    rw [rules, List.reverse_reverse, List.reverse_append] at hreverse
    exact hreverse
  obtain ⟨node, top, below, hstack, hrule, _⟩ :=
    exists_innermost hmap (mt List.reverse_eq_nil_iff.mp hpre)
  refine ⟨node, top :: below, hstack, hrule, fun refusal => ?_⟩
  change b.close.2 = some refusal ↔ _
  rw [close, hstack]
  simp only []
  cases node.toItem with
  | error e => simp
  | ok item => simp [add]

/-- A node that is closed is refused for its uneven rows, if it is a table, or for a fault. -/
theorem toErrors_of_close {node : Node} {refusal : Refusal}
    (h : node.toItem = .error refusal) (hrule : node.rule.isTable = false) :
    refusal.toErrors = [] := by
  rcases Node.toItem_error h with ⟨f, rfl⟩ | ⟨htable, _⟩
  · rfl
  · rw [hrule] at htable
    cases htable

theorem toItem_of_uneven {node : Node} {rows : List Token} {e : ParseError}
    (hrule : node.rule.isTable = true) (hrows : node.tokens .tableRow = .ok rows)
    (he : unevenRow (rows.map Node.rowOf) = some e) : node.toItem = .error (.error e) := by
  have hbad : node.rows = .error (.error e) := by
    rw [Node.rows, hrows]
    simp only [bind, Except.bind, Except.mapError, he]
  cases hr : node.rule with
  | dataTable =>
      rw [Node.toItem, hr]
      simp only [Node.toDataTable, hbad]
      rfl
  | examplesTable =>
      rw [Node.toItem, hr]
      simp only [Node.toExamplesTable, hbad]
      rfl
  | _ =>
      rw [hr] at hrule
      cases hrule

theorem Agrees.close_outside {r q : Rule} {pre : List Rule} (hcurrent : tally.current = none)
    (hnone : Rule.NoTable b.rules) (hrules : b.rules = pre ++ [r]) (hpre : pre ≠ []) :
    Agrees tally b [.closed q] := by
  obtain ⟨node, below, hstack, hrule, hrefused⟩ := close_innermost hrules hpre q
  have hkept : tally.take (.closed q) = tally := by
    rw [Tally.take, hcurrent]
  refine .of_call (by rw [hkept]) ?_ ?_
  · rw [hkept, hcurrent]
    refine .outside ?_
    rw [rules_closed]
    exact fun p hp => hnone p (List.dropLast_subset _ hp)
  · intro refusal hr
    refine toErrors_of_close ((hrefused refusal).mp hr) ?_
    rw [hrule]
    exact hnone r (by rw [hrules]; simp)

theorem Agrees.close {r : Rule} {pre : List Rule} (h : Collects tally.current b)
    (hrules : b.rules = pre ++ [r]) (hpre : pre ≠ []) (hno : Rule.NoTable pre) :
    Agrees tally b [.closed r] := by
  generalize hcurrent : tally.current = current at h
  cases h with
  | outside hnone => exact .close_outside hcurrent hnone hrules hpre
  | inside x top below hx hstack htop hrows _ =>
      obtain ⟨node, _, hstack', hrule, hrefused⟩ := close_innermost hrules hpre r
      rw [hstack] at hstack'
      cases hstack'
      have htaken : tally.take (.closed r) = { tables := tally.tables ++ [x] } := by
        rw [Tally.take, hcurrent]
        simp only []
        rw [if_pos (by rw [← htop, hrule])]
      refine ⟨?_, [x], ?_, ?_⟩
      · change Collects (tally.take (.closed r)).current _
        rw [htaken]
        refine .outside ?_
        rw [Builder.feed_cons_fst, Builder.feed_nil, rules_closed, hrules, List.dropLast_concat]
        exact hno
      · change (tally.take (.closed r)).tables = _
        rw [htaken]
      · rw [Builder.feed_cons_snd, Builder.feed_nil, List.append_nil]
        cases herror : x.error? with
        | some e =>
            rw [(hrefused _).mpr (toItem_of_uneven (by rw [htop]; exact hx) hrows herror),
              List.filterMap_cons_some herror]
            rfl
        | none =>
            rw [List.filterMap_cons_none herror]
            cases hr : (Builder.receive (.closed r) b).2 with
            | none => rfl
            | some refusal =>
                rcases Node.toItem_error ((hrefused refusal).mp hr) with
                  ⟨f, rfl⟩ | ⟨_, ts, e, hts, huneven, _⟩
                · rfl
                · rw [hrows] at hts
                  cases hts
                  rw [RawTable.error?, huneven] at herror
                  cases herror

theorem Agrees.closed {rs pre : List Rule} (h : Collects tally.current b)
    (hrules : b.rules = pre ++ rs.reverse) (hpre : pre ≠ [])
    (hno : Rule.NoTable b.rules.dropLast) : Agrees tally b (rs.map .closed) := by
  induction rs generalizing b tally with
  | nil => exact .nil h
  | cons r rs ih =>
      rw [List.reverse_cons, ← List.append_assoc] at hrules
      rw [hrules, List.dropLast_concat] at hno
      have hfirst := Agrees.close h hrules (by simp [hpre]) hno
      refine hfirst.append (ih hfirst.collects ?_ ?_)
      · rw [Builder.feed_cons_fst, Builder.feed_nil, rules_closed, hrules, List.dropLast_concat]
      · rw [Builder.feed_cons_fst, Builder.feed_nil, rules_closed, hrules, List.dropLast_concat]
        exact fun q hq => hno q (List.dropLast_subset _ hq)

/-- A move closes some rules, opens others and reads a token. -/
theorem Agrees.callsOf {s : State} {a : Move} (h : Collects tally.current b)
    (hrules : b.rules = s.path) (ha : a ∈ s.moves) (t : Token) :
    Agrees tally b (Run.callsOf a t) := by
  have hclosed : Agrees tally b (a.closes.map .closed) :=
    .closed h (rules_eq_take_append hrules ha) (s.take_keep_ne_nil a ha)
      (by rw [hrules]; exact s.path_dropLast)
  have hopened : Agrees (tally.takeAll (a.closes.map .closed))
      (Builder.feed (a.closes.map .closed) b).1 (a.opens.map .opened) := by
    refine .opened hclosed.collects ?_
    rw [rules_feed_closed (rules_eq_take_append hrules ha), (s.fits_of_mem_moves a ha).2]
    exact a.next.path_dropLast
  exact (hclosed.append hopened).append (.read (hclosed.append hopened).collects t)

end DocumentBuilder

/-! ## Tables in a run -/

theorem Matcher.ask_eof {m : Matcher} {t : Token} (h : t.isEnd = true) :
    (m.ask [] .eof t).isYes = true := by
  rw [Token.isEnd, Option.isNone_iff_eq_none] at h
  rw [ask, read, h, Token.isEnd, h]
  rfl

theorem ParseError.isMalformed_unexpected (t : Token) (kinds : List TokenKind) :
    (ParseError.unexpected t kinds).isMalformed = false := by
  unfold unexpected
  split <;> rfl

theorem RawTable.isMalformed_of_error? {x : RawTable} {e : ParseError} (h : x.error? = some e) :
    e.isMalformed = true := by
  obtain ⟨_, t, _, rfl⟩ := error?_eq_some h
  rfl

namespace Run

variable {β ρ : Type} [Builder β ρ] {mode : Mode} {s s' : State}

theorem isMalformed_headerErrors {run : Run β} :
    ∀ e ∈ run.headerErrors mode s, e.isMalformed = false := by
  intro e he
  simp only [headerErrors, refusals, List.map_map, List.mem_map] at he
  obtain ⟨header, _, rfl⟩ := he
  rfl

variable {run : Run (Recorder DocumentBuilder)} {o : Step (Recorder DocumentBuilder)}

/-- The errors that the builder is to blame for are those of the tables in the calls so far. -/
structure Tallies (s : State) (run : Run (Recorder DocumentBuilder)) : Prop where
  rules : run.builder.builder.rules = s.path
  collects : DocumentBuilder.Collects
    (Tally.takeAll {} (run.builder.log.map Prod.fst)).current run.builder.builder
  errors : run.errors.filter ParseError.isMalformed =
    (Call.tables (run.builder.log.map Prod.fst)).filterMap RawTable.error?

/-- Calls with which tables and builder agree keep the run in order. -/
theorem Tallies.feed {cs : List Call} {es : List ParseError} {run' : Run (Recorder DocumentBuilder)}
    (h : Tallies s run)
    (hagrees : DocumentBuilder.Agrees (Tally.takeAll {} (run.builder.log.map Prod.fst))
      run.builder.builder cs)
    (hes : ∀ e ∈ es, e.isMalformed = false)
    (hbuilder : run'.builder = (Builder.feed cs run.builder).1)
    (herrors : run'.errors = run.errors ++ (es ++
      (Builder.feed cs run.builder).2.flatMap Refusal.toErrors)) :
    DocumentBuilder.Collects (Tally.takeAll {} (run'.builder.log.map Prod.fst)).current
        run'.builder.builder ∧
      run'.errors.filter ParseError.isMalformed =
        (Call.tables (run'.builder.log.map Prod.fst)).filterMap RawTable.error? := by
  have hlog : run'.builder.log.map Prod.fst = run.builder.log.map Prod.fst ++ cs := by
    rw [hbuilder, Recorder.feed_eq, List.map_append, Builder.trace_fst]
  obtain ⟨closed, htables, hclosed⟩ := hagrees.errors
  rw [hlog, Call.tables, Tally.takeAll_append]
  refine ⟨?_, ?_⟩
  · rw [hbuilder, Recorder.feed_eq]
    exact hagrees.collects
  · have hnone : es.filter ParseError.isMalformed = [] := by
      rw [List.filter_eq_nil_iff]
      intro e he
      rw [hes e he]
      exact Bool.false_ne_true
    have hall : (closed.filterMap RawTable.error?).filter ParseError.isMalformed =
        closed.filterMap RawTable.error? := by
      rw [List.filter_eq_self]
      intro e he
      obtain ⟨x, _, hx⟩ := List.mem_filterMap.mp he
      exact RawTable.isMalformed_of_error? hx
    rw [htables, List.filterMap_append, herrors, Recorder.feed_eq, hclosed, List.filter_append,
      List.filter_append, hnone, hall, List.nil_append, h.errors]
    rfl

theorem Tallies.goes (h : Tallies s run) (hgoes : Goes mode s run o s') : Tallies s' o.run := by
  have hrules := hgoes.rules Recorder.commutes h.rules
  cases hgoes with
  | moved a reading ha _ _ _ _ _ hbuilder herrors =>
      obtain ⟨hcollects, hfilter⟩ := h.feed (.callsOf h.collects h.rules ha o.token)
        isMalformed_headerErrors hbuilder herrors
      exact ⟨hrules, hcollects, hfilter⟩
  | skipped _ _ _ _ _ hbuilder herrors =>
      have hes : ∀ e ∈ run.headerErrors mode s ++ [.unexpected o.token s.expected],
          e.isMalformed = false := by
        intro e he
        rcases List.mem_append.mp he with he | he
        · exact isMalformed_headerErrors e he
        · rw [List.mem_singleton.mp he]
          exact ParseError.isMalformed_unexpected _ _
      obtain ⟨hcollects, hfilter⟩ := h.feed (.nil h.collects) hes hbuilder
        (by rw [herrors]; simp)
      exact ⟨hrules, hcollects, hfilter⟩

/-- Behind the end of the input no table is open. -/
theorem Goes.noTable (hgoes : Goes mode s run o s') (hmode : mode.hidden = [])
    (hend : o.token.isEnd = true) : Rule.NoTable s'.path := by
  rw [hgoes.isEnd] at hend
  cases hgoes with
  | moved a reading ha hask =>
      rw [(s.next_eq_finished a ha).mpr ((Matcher.ask_yes_isEnd hask).mp hend)]
      decide
  | skipped _ _ _ _ hno =>
      refine s.noTable_of_not_eof fun a ha heof => ?_
      have hyes := hno a ha
      rw [heof, hmode, Matcher.ask_eof hend] at hyes
      cases hyes

end Run

namespace Parser

variable {parser : Parser DocumentBuilder} {matcher : Matcher} {source : Text}
  {last closed : Run (Recorder DocumentBuilder)}

theorem tallies_of_loop (hloop : parser.recording.loop matcher source = (last, none)) :
    ∃ s, Run.Tallies s last ∧ Rule.NoTable s.path := by
  have hstart : Run.Tallies .start (parser.recording.opening matcher source) :=
    ⟨rfl, .outside (by decide : Rule.NoTable [.root, .document]), rfl⟩
  obtain ⟨turn, hlast, hdone⟩ := parser.recording.ends matcher source
  have hturn := Run.turns_induction (P := Run.Tallies) (fun _ _ _ h hgoes _ => h.goes hgoes) _ _ _
    hstart turn (List.mem_of_getLast? hlast)
  have hsteps : parser.recording.loop matcher source = _ := Run.steps_eq_of_last hlast
  rw [hloop] at hsteps
  cases hnext : (turn.outcome parser.recording.mode).next with
  | error halt =>
      rw [hnext] at hsteps
      cases hsteps
  | ok s =>
      rw [hnext] at hsteps hdone
      cases hsteps
      have hgoes := Run.advance_goes hnext
      refine ⟨s, hturn.goes hgoes, hgoes.noTable rfl ?_⟩
      exact hdone.resolve_left fun ⟨_, hhalt⟩ => nomatch hhalt

/-- The builder's errors are those of the tables in all calls of a parse. -/
theorem table_errors (hloop : parser.recording.loop matcher source = (last, none))
    (hclose : last.call parser.mode (.closed .document) = (closed, none)) :
    closed.errors.filter ParseError.isMalformed =
      (Call.tables (closed.builder.log.map Prod.fst)).filterMap RawTable.error? := by
  obtain ⟨s, h, hnone⟩ := tallies_of_loop hloop
  have hgrows := Run.call_none hclose
  rw [← h.rules] at hnone
  have hlength := s.two_le_length_path
  have hne : s.path ≠ [] := List.ne_nil_of_length_pos (by omega)
  have hpath : last.builder.builder.rules = s.path.dropLast ++ [s.path.getLast hne] := by
    rw [h.rules, List.dropLast_append_getLast]
  have hpre : s.path.dropLast ≠ [] := by
    apply List.ne_nil_of_length_pos
    rw [List.length_dropLast]
    omega
  have hagrees : DocumentBuilder.Agrees (Tally.takeAll {} (last.builder.log.map Prod.fst))
      last.builder.builder [.closed .document] :=
    .close_outside (h.collects.current_eq_none hnone) hnone hpath hpre
  have hquiet : ∀ e ∈ ([] : List ParseError), e.isMalformed = false := fun e he => nomatch he
  refine (h.feed hagrees hquiet hgrows.builder ?_).2
  rw [hgrows.errors, Builder.feed_cons_snd, Builder.feed_nil, List.append_nil]
  rfl

end Parser

end FeatureFile
