import FeatureFile.Proofs.Nodes
import FeatureFile.Proofs.OpenRules

/-!
# A builder that refuses nothing but uneven tables

The document builder closes whatever node is innermost, and a node that lacks a part makes that
fail. That it never does is a fact about the grammar: every rule is opened together with a token
that makes its node complete, except for the two rules that wrap others, a scenario definition and
an examples definition, and these are closed right behind the rule they wrap. `Rule.closesWell` and
`Move.opensWell` say this of single moves, and `State.moves_well` checks all moves of all states.

From that, `DocumentBuilder.Healthy` is an invariant: in every state the open rules are those of the
state, and every node is sound and, unless it is a wrapping one, complete. A move keeps the
builder healthy, whether a table is refused on the way or not, and refuses nothing else
(`DocumentBuilder.Healthy.feed`).
-/

namespace FeatureFile

namespace Rule

/-- Is the rule complete only when a rule inside it has been closed? -/
def wraps : Rule → Bool
  | .scenarioDefinition | .examplesDefinition => true
  | _ => false

/-- Is it a rule that the grammar has no states for? -/
def isNamed : Rule → Bool
  | .named _ => true
  | _ => false

/-- Rules to be closed in turn: a wrapping rule comes right behind a rule that it needs. -/
def closesWell : List Rule → Bool
  | r :: q :: rs => (!q.wraps || q.needs.contains (.rule r)) && closesWell (q :: rs)
  | _ => true

theorem isTable_eq_false {q r : Rule} (hq : q.wraps = true) (h : .rule r ∈ q.needs) :
    r.isTable = false := by
  cases q with
  | scenarioDefinition =>
      rcases List.mem_cons.mp h with h | h
      · cases h
        rfl
      · cases List.mem_singleton.mp h
        rfl
  | examplesDefinition =>
      cases List.mem_singleton.mp h
      rfl
  | _ => cases hq

end Rule

/-- The innermost rule that the move opens is completed by the token of the move, and the others
need nothing yet. -/
def Move.opensWell (a : Move) : Bool :=
  a.opens.all (fun r => !r.isNamed) && a.opens.dropLast.all (fun r => r.needs.isEmpty || r.wraps) &&
    match a.opens.getLast? with
    | none => true
    | some r => a.kind != .comment && (r.needs.isEmpty || r.needs.contains (.token a.kind))

theorem State.moves_well (s : State) :
    ∀ a ∈ s.moves, Rule.closesWell a.closes = true ∧ a.opensWell = true := by
  revert s
  exact State.forall_of_all (by decide)

theorem State.take_keep_ne_nil (s : State) : ∀ a ∈ s.moves, s.path.take (a.keep s) ≠ [] := by
  revert s
  exact State.forall_of_all (by decide)

theorem State.two_le_length_path (s : State) : 2 ≤ s.path.length := by
  revert s
  exact State.forall_of_all (by decide)

theorem State.innermost_not_wraps (s : State) :
    ∀ r ∈ s.path.getLast?, r.wraps = false := by
  revert s
  exact State.forall_of_all (by decide)

/-- A node as it stands on the stack: it may wait for a rule inside it, but for nothing else. -/
structure Node.Fit (n : Node) : Prop where
  sound : n.Sound
  complete : n.rule.wraps = false → n.Complete
  known : n.rule.isNamed = false

namespace Node

variable {n : Node}

theorem Fit.add {item : NodeItem} (h : n.Fit) (hitem : item.Sound) : (n.add item).Fit :=
  ⟨h.sound.add hitem, fun hw => (h.complete hw).add item, h.known⟩

theorem Fit.ne_named (h : n.Fit) (name : Text) : n.rule ≠ .named name := by
  intro hr
  have hknown := h.known
  rw [hr] at hknown
  cases hknown

theorem complete_add_of_wraps {item : NodeItem} (hw : n.rule.wraps = true)
    (hl : item.label ∈ n.rule.needs) : (n.add item).Complete where
  needed := .inr ⟨item, List.mem_append_right _ (List.mem_singleton_self _), hl⟩
  opener := by
    intro hr
    change n.rule = .docString at hr
    rw [hr] at hw
    cases hw
  filled := by
    intro hr
    change n.rule = .description at hr
    rw [hr] at hw
    cases hw

end Node

namespace DocumentBuilder

variable {b : DocumentBuilder}

/-! ## Closing rules -/

theorem close_cases {n q : Node} {below : List Node} (hstack : b.stack = n :: q :: below)
    (hn : n.Fit) (hcomplete : n.Complete) :
    (∃ item, item.Sound ∧ item.label = .rule n.rule ∧
      b.close = ({ b with stack := q.add item :: below }, none)) ∨
      (n.rule.isTable = true ∧
        ∃ e, b.close = ({ b with stack := q :: below }, some (.error e))) := by
  unfold close
  rw [hstack]
  simp only []
  rcases Node.toItem_cases hn.sound hcomplete hn.ne_named with
    ⟨item, hitem, hsound, hl⟩ | ⟨htable, e, he⟩
  · refine .inl ⟨item, hsound, hl, ?_⟩
    rw [hitem]
    rfl
  · refine .inr ⟨htable, e, ?_⟩
    rw [he]

/-- Closing the innermost rule leaves the rule around it fit, and complete if it waited for nothing
else. -/
theorem close_fit {n q : Node} {below : List Node} (hstack : b.stack = n :: q :: below)
    (hn : n.Fit) (hcomplete : n.Complete) (hq : q.Fit) :
    ∃ q', b.close.1 = { b with stack := q' :: below } ∧ q'.rule = q.rule ∧ q'.Fit ∧
      ((q.rule.wraps = true → .rule n.rule ∈ q.rule.needs) → q'.Complete) ∧
      ∀ r ∈ b.close.2.toList, r.IsError := by
  rcases close_cases hstack hn hcomplete with ⟨item, hsound, hl, hclose⟩ | ⟨htable, e, hclose⟩
  · rw [hclose]
    refine ⟨q.add item, rfl, rfl, hq.add hsound, ?_, fun r hr => by cases hr⟩
    intro hneeds
    cases hw : q.rule.wraps with
    | false => exact (hq.complete hw).add item
    | true => exact Node.complete_add_of_wraps hw (by rw [hl]; exact hneeds hw)
  · rw [hclose]
    refine ⟨q, rfl, rfl, hq, ?_, ?_⟩
    · intro hneeds
      cases hw : q.rule.wraps with
      | false => exact hq.complete hw
      | true =>
          rw [Rule.isTable_eq_false hw (hneeds hw)] at htable
          cases htable
    · intro r hr
      rw [List.mem_singleton.mp hr]
      trivial

theorem exists_innermost {r : Rule} {rs : List Rule} (hstack : b.stack.map Node.rule = r :: rs)
    (hrs : rs ≠ []) :
    ∃ n q below, b.stack = n :: q :: below ∧ n.rule = r ∧ (q :: below).map Node.rule = rs := by
  match hb : b.stack with
  | [] =>
      rw [hb] at hstack
      cases hstack
  | [n] =>
      rw [hb] at hstack
      exact absurd (List.cons.inj hstack).2.symm hrs
  | n :: q :: below =>
      rw [hb] at hstack
      obtain ⟨hn, hrest⟩ := List.cons.inj hstack
      exact ⟨n, q, below, rfl, hn, hrest⟩

/-- Closing rules in turn leaves fit nodes behind and refuses uneven tables at most. -/
theorem feed_closed_fit {rs base : List Rule} (hstack : b.stack.map Node.rule = rs ++ base)
    (hbase : base ≠ []) (hfit : ∀ n ∈ b.stack, n.Fit)
    (htop : rs ≠ [] → ∀ n, b.stack.head? = some n → n.Complete)
    (hwell : Rule.closesWell rs = true) :
    (∀ n ∈ (Builder.feed (rs.map .closed) b).1.stack, n.Fit) ∧
      ∀ r ∈ (Builder.feed (rs.map .closed) b).2, r.IsError := by
  induction rs generalizing b with
  | nil => exact ⟨hfit, fun r hr => by cases hr⟩
  | cons r rs ih =>
      have hne : rs ++ base ≠ [] := fun hnil => hbase (List.append_eq_nil_iff.mp hnil).2
      rw [List.cons_append] at hstack
      obtain ⟨n, q, below, hnodes, hn, hrest⟩ := exists_innermost hstack hne
      rw [hnodes] at hfit
      obtain ⟨q', hclose, hrule, hq', hcomplete, herrors⟩ :=
        close_fit hnodes (hfit n List.mem_cons_self)
          (htop (List.cons_ne_nil _ _) n (by rw [hnodes]; rfl))
          (hfit q (List.mem_cons_of_mem _ List.mem_cons_self))
      have hnext : (∀ m ∈ (Builder.feed (rs.map .closed) b.close.1).1.stack, m.Fit) ∧
          ∀ e ∈ (Builder.feed (rs.map .closed) b.close.1).2, e.IsError := by
        rw [hclose]
        refine ih ?_ ?_ ?_ ?_
        · rw [← hrest]
          exact congrArg (· :: below.map Node.rule) hrule
        · intro m hm
          rcases List.mem_cons.mp hm with rfl | hm
          · exact hq'
          · exact hfit m (List.mem_cons_of_mem _ (List.mem_cons_of_mem _ hm))
        · rintro hrs m ⟨⟩
          refine hcomplete fun hw => ?_
          cases rs with
          | nil => exact absurd rfl hrs
          | cons p rs =>
              have hp : q.rule = p := (List.cons.inj hrest).1
              have hwaits := (Bool.and_eq_true_iff.mp hwell).1
              rw [← hp, hw, ← hn] at hwaits
              simpa using hwaits
        · cases rs with
          | nil => rfl
          | cons p rs => exact (Bool.and_eq_true_iff.mp hwell).2
      refine ⟨hnext.1, ?_⟩
      intro e he
      rcases List.mem_append.mp he with he | he
      · exact herrors e he
      · exact hnext.2 e he

/-! ## Opening rules and reading the token -/

theorem feed_opened (rs : List Rule) (b : DocumentBuilder) :
    Builder.feed (rs.map .opened) b =
      ({ b with stack := (rs.map fun r => { rule := r }).reverse ++ b.stack }, []) := by
  induction rs generalizing b with
  | nil => rfl
  | cons r rs ih =>
      rw [List.map_cons, Builder.feed]
      have hopened : Builder.receive (.opened r) b =
        ({ b with stack := { rule := r } :: b.stack }, none) := rfl
      rw [hopened, ih]
      simp

/-- Reading a token adds it to the innermost node, or leaves the stack alone. -/
theorem read_stack {t : Token} {k : TokenKind} {top : Node} {below : List Node}
    (ht : t.kind? = some k) (hstack : b.stack = top :: below) :
    (b.read t).2 = none ∧
      (b.read t).1.stack =
        if k = .comment then top :: below else top.add (.token k t) :: below := by
  obtain ⟨reading, hreading, rfl⟩ := Option.map_eq_some_iff.mp ht
  unfold read
  rw [hreading]
  simp only []
  split
  · exact ⟨rfl, hstack⟩
  · unfold add
    rw [hstack]
    exact ⟨rfl, rfl⟩

end DocumentBuilder

theorem Move.opensWell_concat {a : Move} {os : List Rule} {r : Rule} (hos : a.opens = os ++ [r])
    (hwell : a.opensWell = true) :
    (∀ q ∈ os, q.isNamed = false ∧ (q.needs = [] ∨ q.wraps = true)) ∧ r.isNamed = false ∧
      a.kind ≠ .comment ∧ (r.needs = [] ∨ .token a.kind ∈ r.needs) := by
  unfold opensWell at hwell
  rw [hos, List.dropLast_concat, List.getLast?_concat] at hwell
  simp only [List.all_append, List.all_cons, List.all_nil, Bool.and_true, Bool.and_eq_true,
    List.all_eq_true, Bool.not_eq_true', Bool.or_eq_true, List.isEmpty_iff, bne_iff_ne,
    List.contains_eq_mem, decide_eq_true_eq] at hwell
  obtain ⟨⟨⟨hnamed, hr⟩, hos'⟩, hkind, hneeds⟩ := hwell
  exact ⟨fun q hq => ⟨hnamed q hq, hos' q hq⟩, hr, hkind, hneeds⟩

/-- A token as a move wants it: of its kind, with the text behind an opening separator, and not
empty at the start of a description. -/
structure Move.Serves (a : Move) (t : Token) : Prop where
  kind : t.kind? = some a.kind
  opener : .docString ∈ a.opens → (t.reading.bind Reading.text).isSome
  filled : .description ∈ a.opens → Node.textOf t ≠ []

namespace DocumentBuilder

variable {b : DocumentBuilder} {s : State} {a : Move} {t : Token}

/-- Opening rules and reading a token is not refused. -/
theorem feed_opened_read {k : TokenKind} (hne : b.stack ≠ []) (ht : t.kind? = some k)
    (rs : List Rule) : (Builder.feed (rs.map .opened ++ [.read t]) b).2 = [] := by
  have hopened : (rs.map fun r => ({ rule := r } : Node)).reverse ++ b.stack ≠ [] :=
    List.append_ne_nil_of_right_ne_nil _ hne
  obtain ⟨top, below, hstack⟩ := List.exists_cons_of_ne_nil hopened
  rw [Builder.feed_append, feed_opened, Builder.feed_cons_snd]
  change [] ++ ((read _ t).2.toList ++ []) = []
  rw [(read_stack ht hstack).1]
  rfl

theorem feed_opened_read_fit (hne : b.stack ≠ []) (hfit : ∀ n ∈ b.stack, n.Fit)
    (hwell : a.opensWell = true) (ht : a.Serves t) :
    (∀ n ∈ (Builder.feed (a.opens.map .opened ++ [.read t]) b).1.stack, n.Fit) ∧
      (Builder.feed (a.opens.map .opened ++ [.read t]) b).2 = [] := by
  refine ⟨?_, feed_opened_read hne ht.kind a.opens⟩
  rw [Builder.feed_append, feed_opened]
  rcases List.eq_nil_or_concat a.opens with hos | ⟨os, r, hos⟩
  · obtain ⟨top, below, hstack⟩ := List.exists_cons_of_ne_nil hne
    rw [hos]
    have hread := (read_stack ht.kind hstack).2
    rw [hstack] at hfit
    change ∀ n ∈ (b.read t).1.stack, n.Fit
    rw [hread]
    split
    · exact hfit
    · intro n hn
      rcases List.mem_cons.mp hn with rfl | hn
      · exact (hfit top List.mem_cons_self).add (.part _ rfl)
      · exact hfit n (List.mem_cons_of_mem _ hn)
  · rw [List.concat_eq_append] at hos
    obtain ⟨houter, hnamed, hkind, hneeds⟩ := Move.opensWell_concat hos hwell
    let opened : DocumentBuilder :=
      { b with stack := (a.opens.map fun r => { rule := r }).reverse ++ b.stack }
    have hstack : opened.stack =
        { rule := r } :: ((os.map fun r => { rule := r }).reverse ++ b.stack) := by
      simp only [opened, hos, List.map_append, List.map_cons, List.map_nil, List.reverse_append,
        List.reverse_cons, List.reverse_nil, List.nil_append, List.cons_append]
    have hread := (read_stack ht.kind hstack).2
    rw [if_neg hkind] at hread
    change ∀ n ∈ (opened.read t).1.stack, n.Fit
    rw [hread]
    intro n hn
    rcases List.mem_cons.mp hn with rfl | hn
    · have hr : r ∈ a.opens := by
        rw [hos]
        exact List.mem_append_right _ (List.mem_singleton_self r)
      refine ⟨Node.Sound.add (fun i hi => by cases hi) (.part _ rfl), fun _ => ?_, hnamed⟩
      refine Node.complete_add_token hneeds (fun h => ht.opener ?_) (fun h => ht.filled ?_)
      · rw [← h]
        exact hr
      · rw [← h]
        exact hr
    · rcases List.mem_append.mp hn with hn | hn
      · obtain ⟨q, hq, rfl⟩ := List.mem_map.mp (List.mem_reverse.mp hn)
        obtain ⟨hknown, hq⟩ := houter q hq
        refine ⟨fun i hi => (by cases hi), fun hw => ?_, hknown⟩
        rcases hq with hq | hq
        · exact Node.complete_of_needs_nil hq
        · change q.wraps = false at hw
          rw [hq] at hw
          cases hw
      · exact hfit n hn

/-- The open rules are those of the state, and every node is fit. -/
structure Healthy (s : State) (b : DocumentBuilder) : Prop where
  rules : b.rules = s.path
  fit : ∀ n ∈ b.stack, n.Fit

theorem stack_rules (h : Healthy s b) : b.stack.map Node.rule = s.path.reverse := by
  rw [← h.rules, DocumentBuilder.rules, List.reverse_reverse]

theorem Healthy.complete {n : Node} (h : Healthy s b) (hn : b.stack.head? = some n) :
    n.Complete := by
  refine (h.fit n (List.mem_of_head? hn)).complete (s.innermost_not_wraps n.rule ?_)
  rw [← List.head?_reverse, ← stack_rules h, List.head?_map, hn]
  rfl

/-- A move keeps the builder healthy and is refused for an uneven table at most. -/
theorem Healthy.feed (h : Healthy s b) (ha : a ∈ s.moves) (ht : a.Serves t) :
    Healthy a.next (Builder.feed (Run.callsOf a t) b).1 ∧
      ∀ r ∈ (Builder.feed (Run.callsOf a t) b).2, r.IsError := by
  obtain ⟨hcloses, hopens⟩ := s.moves_well a ha
  have hkeep := s.take_keep_ne_nil a ha
  have hstack : b.stack.map Node.rule = a.closes ++ (s.path.take (a.keep s)).reverse := by
    rw [stack_rules h, (s.fits_of_mem_moves a ha).1, ← List.reverse_append, List.take_append_drop]
  obtain ⟨hfit, herrors⟩ := feed_closed_fit hstack (mt List.reverse_eq_nil_iff.mp hkeep) h.fit
    (fun _ n hn => h.complete hn) hcloses
  have hrules := rules_feed_closed (rules_eq_take_append h.rules ha)
  have hne : (Builder.feed (a.closes.map .closed) b).1.stack ≠ [] := by
    intro hnil
    rw [DocumentBuilder.rules, hnil] at hrules
    exact hkeep hrules.symm
  obtain ⟨hfit', hnone⟩ := feed_opened_read_fit hne hfit hopens ht
  refine ⟨⟨rules_feed_callsOf h.rules ha t, ?_⟩, ?_⟩
  · rw [Run.callsOf, List.append_assoc, Builder.feed_append]
    exact hfit'
  · rw [Run.callsOf, List.append_assoc, Builder.feed_append, hnone, List.append_nil]
    exact herrors

/-! ## Closing the document -/

theorem Healthy.exists_two (h : Healthy s b) :
    ∃ n q below, b.stack = n :: q :: below ∧ n.Fit ∧ n.Complete ∧ q.Fit := by
  obtain ⟨r, rs, hpath, hrs⟩ : ∃ r rs, s.path.reverse = r :: rs ∧ rs ≠ [] := by
    have hlength := s.two_le_length_path
    rw [← List.length_reverse] at hlength
    match s.path.reverse, hlength with
    | r :: q :: rs, _ => exact ⟨r, q :: rs, rfl, List.cons_ne_nil _ _⟩
  obtain ⟨n, q, below, hstack, _⟩ := exists_innermost (by rw [stack_rules h, hpath]) hrs
  have hfit := h.fit
  have hcomplete : n.Complete := h.complete (by rw [hstack]; rfl)
  rw [hstack] at hfit
  exact ⟨n, q, below, hstack, hfit n List.mem_cons_self, hcomplete,
    hfit q (List.mem_cons_of_mem _ List.mem_cons_self)⟩

/-- The document can be closed in every state; if an input ends too early some other rule is closed
in its place. -/
theorem Healthy.close_isError (h : Healthy s b) :
    ∀ r ∈ (Builder.receive (.closed .document) b).2.toList, r.IsError := by
  obtain ⟨n, q, below, hstack, hn, hcomplete, hq⟩ := h.exists_two
  obtain ⟨_, _, _, _, _, herrors⟩ := close_fit hstack hn hcomplete hq
  exact herrors

/-- Behind the end of the input the document is closed and becomes the result. -/
theorem Healthy.close_finished (h : Healthy .finished b) :
    (Builder.receive (.closed .document) b).2 = none ∧
      ∃ d, Builder.result (Builder.receive (.closed .document) b).1 = .ok (some d) := by
  obtain ⟨n, q, below, hstack, hn, hcomplete, hq⟩ := h.exists_two
  have hrule : n.rule = .document := by
    have hrules := stack_rules h
    rw [hstack] at hrules
    exact (List.cons.inj hrules).1
  rcases close_cases hstack hn hcomplete with ⟨item, hsound, hl, hclose⟩ | ⟨htable, _⟩
  · change b.close.2 = none ∧ ∃ d, b.close.1.result = .ok (some d)
    rw [hclose]
    refine ⟨rfl, ?_⟩
    rw [hrule] at hl
    obtain ⟨i, hi⟩ := Node.exists_first (n := q.add item)
      (List.mem_append_right _ (List.mem_singleton_self item)) hl
    obtain ⟨hmem, hlabel⟩ := Node.first_of_label hi
    obtain ⟨f, rfl⟩ := ((hq.add hsound).sound i hmem).document_of_label hlabel
    refine ⟨{ feature := f, comments := b.comments }, ?_⟩
    rw [result]
    simp only [hi]
  · rw [hrule] at htable
    cases htable

end DocumentBuilder

end FeatureFile
