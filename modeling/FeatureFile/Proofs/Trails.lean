import FeatureFile.Proofs.Acceptance
import FeatureFile.Proofs.Layout

/-!
# The way through a layout

A trail is a way through the table of moves: which state makes which move on which token. To the
last state there is at most one trail for given tokens (`Trail.unique`), although a state may have
two moves for a line of tags: what stands behind the tags tells them apart.

So it is enough to find some trail for the tokens of a layout. It is put together along the layout,
phrase by phrase. What has to be kept track of are the open rules: a phrase is read in a state where
rules of the phrase before may still be open, and it leaves rules of its own to be closed by what
comes next. `Leads s k os ps vs s'` says that the first `k` open rules of the state `s` stay, that
the rules `os` are opened, and that the parts `ps` are read then. Parts in a row (`Leads.append`)
and parts in a rule (`Leads.node`) are the two ways to go on. At the end, the calls along the trail
are those of the parts of the document (`Layout.leads_document`).
-/

namespace FeatureFile

/-- A state that makes a move on a token. -/
structure Stride where
  state : State
  move : Move
  token : Token

namespace Stride

/-- What the builder is told. -/
def calls (x : Stride) : List Call := Run.callsOf x.move x.token

/-- The line of free text that is read, if it is one, with the state. -/
def spot? (x : Stride) : Option (State × Token) :=
  if x.move.kind = .other then some (x.state, x.token) else none

end Stride

/-- Moves in a row from one state to another. -/
inductive Trail : State → List Stride → State → Prop where
  | nil (s : State) : Trail s [] s
  | cons {s s' : State} {a : Move} {t : Token} {xs : List Stride} (ha : a ∈ s.moves)
      (ht : t.kind? = some a.kind) (rest : Trail a.next xs s') : Trail s (⟨s, a, t⟩ :: xs) s'

namespace State

/-- A state has one move for a kind of token and a state to come. -/
theorem eq_of_next_eq (s : State) : ∀ a ∈ s.moves, ∀ b ∈ s.moves, a.kind = b.kind →
    a.next = b.next → a = b := by
  revert s
  exact forall_of_all (by decide +kernel)

theorem not_step_of_tags (s : State) : s = .scenarioTags ∨ s = .examplesTags → ∀ a ∈ s.moves,
    a.kind ≠ .stepLine := by
  revert s
  exact forall_of_all (by decide)

end State

namespace Trail

variable {s s' s'' : State} {xs ys : List Stride}

theorem append (h : Trail s xs s') (h' : Trail s' ys s'') : Trail s (xs ++ ys) s'' := by
  induction h with
  | nil s => exact h'
  | cons ha ht _ ih => exact .cons ha ht (ih h')

theorem mem (h : Trail s xs s') :
    ∀ x ∈ xs, x.move ∈ x.state.moves ∧ x.token.kind? = some x.move.kind := by
  induction h with
  | nil s =>
      intro x hx
      cases hx
  | cons ha ht _ ih =>
      intro x hx
      rcases List.mem_cons.mp hx with rfl | hx
      · exact ⟨ha, ht⟩
      · exact ih x hx

/-- The tokens behind tags tell whose tags they are, by their kinds. It does not matter what steps
are taken for. -/
theorem not_both (h : Trail .examplesTags xs .finished) (h' : Trail .scenarioTags ys .finished)
    {g : Token → Option TokenKind} (hg : ∀ t, t.kind? ≠ some .stepLine → g t = t.kind?) :
    (xs.map Stride.token).map g ≠ (ys.map Stride.token).map g := by
  intro heq
  generalize hs : State.examplesTags = s at h
  generalize hlast : State.finished = last at h
  induction h generalizing ys with
  | nil s =>
      subst hs
      cases hlast
  | @cons s _ a t xs ha ht rest ih =>
      subst hs hlast
      cases h' with
      | @cons _ _ b u ys hb hu rest' =>
          obtain ⟨hfirst, hrest⟩ := List.cons.inj heq
          have hkind : a.kind = b.kind := by
            have hna : a.kind ≠ .stepLine := State.not_step_of_tags _ (.inr rfl) a ha
            have hnb : b.kind ≠ .stepLine := State.not_step_of_tags _ (.inl rfl) b hb
            rw [hg t (by simpa [ht] using hna), hg u (by simpa [hu] using hnb), ht, hu] at hfirst
            exact Option.some.inj hfirst
          obtain ⟨_, hglance⟩ := State.glance_of_tags _ (.inr rfl) a ha
          obtain ⟨_, hglance'⟩ := State.glance_of_tags _ (.inl rfl) b hb
          rw [← hkind] at hglance'
          -- What one does not look past is an examples line here and a scenario's title there.
          have hpassed : a.kind.glance = .passed := by
            rcases hglance with ⟨hpassed, _⟩ | ⟨hfound, _⟩ | ⟨_, hs⟩
            · exact hpassed
            · rcases hglance' with ⟨hpassed, _⟩ | ⟨_, hs⟩ | ⟨hblocked, _⟩
              · exact hpassed
              · cases hs
              · cases hfound.symm.trans hblocked
            · cases hs
          rw [hpassed] at hglance hglance'
          have hnext : a.next = .examplesTags := by simpa using hglance
          have hnext' : b.next = .scenarioTags := by simpa using hglance'
          rw [hnext'] at rest'
          exact ih rest' hrest hnext.symm rfl

/-- There is at most one trail to the last state. -/
theorem unique (h : Trail s xs .finished) (h' : Trail s ys .finished)
    (heq : xs.map Stride.token = ys.map Stride.token) : xs = ys := by
  generalize hlast : State.finished = last at h
  induction h generalizing ys with
  | nil s =>
      cases ys with
      | nil => rfl
      | cons y ys => cases heq
  | @cons s _ a t xs ha ht rest ih =>
      subst hlast
      cases h' with
      | nil => cases heq
      | @cons _ _ b u ys hb hu rest' =>
          obtain ⟨rfl, hrest⟩ := List.cons.inj heq
          have hkind : a.kind = b.kind := Option.some.inj (ht.symm.trans hu)
          have hnext : a.next = b.next := by
            rcases s.eq_of_kind_eq a ha b hb hkind with rfl | ⟨htag, hlook⟩
            · rfl
            · obtain ⟨_, hnext⟩ := s.next_of_looksAhead hlook
              have ha' := hnext a ha htag
              have hb' := hnext b hb (hkind ▸ htag)
              rw [ha'] at rest
              rw [hb'] at rest'
              rw [ha', hb']
              cases hga : a.guarded <;> cases hgb : b.guarded <;> rw [hga] at rest <;>
                rw [hgb] at rest' <;> first
                  | rfl
                  | exact absurd (congrArg _ hrest).symm (not_both rest' rest fun _ _ => rfl)
                  | exact absurd (congrArg _ hrest) (not_both rest rest' fun _ _ => rfl)
          obtain rfl := s.eq_of_next_eq a ha b hb hkind hnext
          rw [ih rest' hrest rfl]

end Trail

/-! ## Open rules along a trail -/

/-- The state has a move like `a`, and this leaves the first `k` of its rules open. -/
def State.Offers (s : State) (k : Nat) (a : Move) : Prop :=
  k ≤ s.path.length ∧ { a with closes := (s.path.drop k).reverse } ∈ s.moves

instance (s : State) (k : Nat) (a : Move) : Decidable (s.Offers k a) :=
  inferInstanceAs (Decidable (_ ∧ _))

/-- The rules left open by a move are those of the next state. -/
theorem State.Offers.path {s : State} {k : Nat} {a : Move} (h : s.Offers k a) :
    s.path.take k ++ a.opens = a.next.path := by
  have hfits := (s.fits_of_mem_moves _ h.2).2
  have hkeep : Move.keep { a with closes := (s.path.drop k).reverse } s = k := by
    rw [Move.keep, List.length_reverse, List.length_drop, Nat.sub_sub_self h.1]
  rwa [hkeep] at hfits

/-- The number of rules that a move leaves open. -/
theorem State.Offers.level {s : State} {k : Nat} {a : Move} (h : s.Offers k a) :
    k + a.opens.length = a.next.path.length := by
  rw [← h.path, List.length_append, List.length_take, Nat.min_eq_left h.1]

/-- The calls that close all rules of a state but the first `k`. -/
def State.closings (s : State) (k : Nat) : List Call := ((s.path.drop k).reverse).map .closed

/-- From the state `s`, of whose open rules the first `k` stay, the rules `os` are opened and the
parts `ps` are read up to the state `s'`. What is open inside of `os` is not closed yet. The lines of
free text among the parts are read in the states that `vs` gives. -/
structure Leads (s : State) (k : Nat) (os : List Rule) (ps : List Part) (vs : List (State × Token))
    (s' : State) : Prop where
  keep : k ≤ s.path.length
  path : s'.path.take (k + os.length) = s.path.take k ++ os
  trail : ∃ xs, Trail s xs s' ∧ xs.map Stride.token = Part.tokensAll ps ∧
    xs.flatMap Stride.calls ++ s'.closings (k + os.length) =
      s.closings k ++ (os.map .opened ++ Part.callsAll ps) ∧
    xs.filterMap Stride.spot? = vs

namespace Leads

variable {s s' s'' : State} {k : Nat} {os : List Rule} {ps qs : List Part}
  {vs ws : List (State × Token)} {a : Move} {t : Token}

theorem refl (h : k ≤ s.path.length) : Leads s k [] [] [] s where
  keep := h
  path := (List.append_nil _).symm
  trail := ⟨[], .nil s, rfl, (List.append_nil _).symm, rfl⟩

theorem token (ha : s.Offers k a) (ht : t.kind? = some a.kind) :
    Leads s k a.opens [.token t] (Stride.spot? ⟨s, a, t⟩).toList a.next := by
  obtain ⟨move, hmove⟩ : ∃ move : Move, move = { a with closes := (s.path.drop k).reverse } :=
    ⟨_, rfl⟩
  have hspot : Stride.spot? ⟨s, move, t⟩ = Stride.spot? ⟨s, a, t⟩ := by
    rw [hmove]
    rfl
  refine ⟨ha.1, ?_, [⟨s, move, t⟩], ?_, rfl, ?_, ?_⟩
  · rw [ha.level, List.take_length, ha.path]
  · rw [hmove]
    exact .cons ha.2 ht (.nil _)
  · simp [State.closings, ha.level, Stride.calls, Run.callsOf, hmove, Part.calls]
  · cases hfound : Stride.spot? ⟨s, a, t⟩ <;> simp [hspot, hfound]

theorem append (h : Leads s k os ps vs s') (h' : Leads s' (k + os.length) [] qs ws s'') :
    Leads s k os (ps ++ qs) (vs ++ ws) s'' := by
  obtain ⟨hkeep, hpath, xs, htrail, htokens, hcalls, hspots⟩ := h
  obtain ⟨_, hpath', ys, htrail', htokens', hcalls', hspots'⟩ := h'
  simp only [List.length_nil, Nat.add_zero, List.append_nil, List.map_nil, List.nil_append]
    at hpath' hcalls'
  refine ⟨hkeep, hpath'.trans hpath, xs ++ ys, htrail.append htrail', ?_, ?_, ?_⟩
  · rw [List.map_append, htokens, htokens', Part.tokensAll_append]
  · rw [List.flatMap_append, List.append_assoc, hcalls', ← List.append_assoc, hcalls,
      Part.callsAll_append]
    simp only [List.append_assoc]
  · rw [List.filterMap_append, hspots, hspots']

/-- What is read in a rule that was opened last becomes one part. -/
theorem node (os : List Rule) {r : Rule} (h : Leads s k (os ++ [r]) ps vs s') :
    Leads s k os [.node r ps] vs s' := by
  obtain ⟨hkeep, hpath, xs, htrail, htokens, hcalls, hspots⟩ := h
  have hlength : k + (os ++ [r]).length = k + os.length + 1 := by
    rw [List.length_append, List.length_singleton, Nat.add_assoc]
  have hbase : (s.path.take k ++ os).length = k + os.length := by
    rw [List.length_append, List.length_take, Nat.min_eq_left hkeep]
  rw [hlength] at hpath hcalls
  rw [← List.append_assoc] at hpath
  have houter : s'.path.take (k + os.length) = s.path.take k ++ os := by
    have htake : (s.path.take k ++ os ++ [r]).take (k + os.length) = s.path.take k ++ os :=
      List.take_left' hbase
    rw [← htake, ← hpath, List.take_take, Nat.min_eq_left (by omega)]
  have hdrop : s'.path.drop (k + os.length) = r :: s'.path.drop (k + os.length + 1) := by
    have hsplit := List.take_append_drop (k + os.length + 1) s'.path
    rw [hpath] at hsplit
    rw [← hsplit, List.append_assoc, List.drop_left' hbase, ← List.append_assoc, List.drop_left']
    · rfl
    · rw [List.length_append, hbase, List.length_singleton]
  refine ⟨hkeep, houter, xs, htrail, ?_, ?_, hspots⟩
  · rw [htokens]
    simp
  · rw [State.closings, hdrop, List.reverse_cons, List.map_append, ← List.append_assoc]
    change xs.flatMap Stride.calls ++ s'.closings (k + os.length + 1) ++ _ = _
    rw [hcalls]
    simp [Part.calls]

/-- Parts of one sort in a row, where each of them leads from one of the states to another. -/
theorem list {α : Type} {f : α → Part} {g : α → List (State × Token)} {P : State → Prop}
    (hkeep : ∀ s, P s → k ≤ s.path.length)
    (hstep : ∀ x s, P s → ∃ s', P s' ∧ Leads s k [] [f x] (g x) s') (xs : List α) (hs : P s) :
    ∃ s', P s' ∧ Leads s k [] (xs.map f) (xs.flatMap g) s' := by
  induction xs generalizing s with
  | nil => exact ⟨s, hs, refl (hkeep s hs)⟩
  | cons x xs ih =>
      obtain ⟨mid, hmid, hfirst⟩ := hstep x s hs
      obtain ⟨s', hs', hrest⟩ := ih hmid
      exact ⟨s', hs', hfirst.append hrest⟩

/-- Parts of one sort in a row, none of which changes the state. -/
theorem row {α : Type} {f : α → Part} (hstep : ∀ x, Leads s s.path.length [] [f x] [] s)
    (xs : List α) : Leads s s.path.length [] (xs.map f) [] s := by
  induction xs with
  | nil => exact refl le_rfl
  | cons x xs ih => exact (hstep x).append ih

/-- Lines of free text in a row. -/
theorem lines (hstay : s.Offers s.path.length (.stay .other s)) (xs : List (Layout.Leaf .other)) :
    Leads s s.path.length [] (xs.map Layout.Leaf.part) (xs.map fun x => (s, x.token)) s := by
  induction xs with
  | nil => exact refl le_rfl
  | cons x xs ih => exact (token hstay x.kind_eq).append ih

end Leads

namespace Layout

open Move

variable {s q : State} {k : Nat} {a : Move} {kind : TokenKind}

/-! ## Lines of free text -/

/-- The lines of a description, with the states in which they are read. -/
def Head.spots (b : Block) (x : Head kind) : List (State × Token) :=
  match x.lines with
  | [] => []
  | y :: ys => (.block b .titled, y.token) :: ys.map fun z => (.block b .described, z.token)

def DocString.spots (o : StepOwner) (x : DocString) : List (State × Token) :=
  x.lines.map fun y => (.docString o, y.token)

def Argument.spots (o : StepOwner) : Argument → List (State × Token)
  | .table _ => []
  | .docString d => d.spots o

def Step.spots (o : StepOwner) (x : Step) : List (State × Token) :=
  x.argument.toList.flatMap (Argument.spots o)

def Examples.spots (x : Examples) : List (State × Token) := x.head.spots .examples

def Background.spots (x : Background) : List (State × Token) :=
  x.head.spots .background ++ x.steps.flatMap (Step.spots .background)

def Scenario.spots : Scenario → List (State × Token)
  | .plain _ head steps => head.spots .scenario ++ steps.flatMap (Step.spots .scenario)
  | .outline _ head steps examples =>
    head.spots .outline ++ (steps.flatMap (Step.spots .outline) ++ examples.flatMap Examples.spots)

def Feature.spots (x : Feature) : List (State × Token) :=
  x.head.spots .feature ++
    (x.background.toList.flatMap Background.spots ++ x.scenarios.flatMap Scenario.spots)

def Document.spots (x : Document) : List (State × Token) := x.feature.toList.flatMap Feature.spots

/-! ## Phrases -/

theorem Leaf.leads (ha : s.Offers k a) (hkind : a.kind = kind) (hother : kind ≠ .other)
    (x : Leaf kind) : Leads s k a.opens [x.part] [] a.next := by
  subst hkind
  have hspot : Stride.spot? ⟨s, a, x.token⟩ = none := if_neg hother
  have h := Leads.token ha x.kind_eq
  rw [hspot] at h
  exact h

/-- A state in which comments and blank lines change nothing. -/
def Idles (s : State) : Prop :=
  s.Offers s.path.length (stay .comment s) ∧ s.Offers s.path.length (stay .empty s)

instance : DecidablePred Idles := fun _ => inferInstanceAs (Decidable (_ ∧ _))

theorem Gap.leads (hs : Idles s) (x : Gap) : Leads s s.path.length [] [x.part] [] s := by
  cases x with
  | comment x => exact Leaf.leads hs.1 rfl TokenKind.noConfusion x
  | blank x => exact Leaf.leads hs.2 rfl TokenKind.noConfusion x

theorem leads_gaps (hs : Idles s) (xs : List Gap) :
    Leads s s.path.length [] (xs.map Gap.part) [] s :=
  Leads.row (Gap.leads hs) xs

theorem block_moves (b : Block) :
    (State.block b .titled).Offers b.path.length (stay .empty (.block b .titled)) ∧
      (State.block b .titled).Offers b.path.length
        (enter .other [.description] (.block b .described)) ∧
      (State.block b .described).Offers (State.block b .described).path.length
        (stay .other (.block b .described)) ∧
      Idles (.block b .commented) := by
  cases b <;> decide

theorem comment_mem_moves (b : Block) {p : Phase} (hp : p ≠ .commented) :
    (State.block b p).Offers b.path.length (stay .comment (.block b .commented)) := by
  cases p with
  | titled => cases b <;> decide
  | described => cases b <;> decide
  | commented => exact absurd rfl hp

/-- A description becomes one part, if there is any. -/
theorem Head.leads_description (b : Block) (x : Head kind) :
    ∃ p, p ≠ .commented ∧
      Leads (.block b .titled) b.path.length [] x.description (x.spots b) (.block b p) := by
  obtain ⟨_, henter, hstay, _⟩ := block_moves b
  obtain ⟨title, blanks, lines, remarks⟩ := x
  cases lines with
  | nil => exact ⟨.titled, Phase.noConfusion, Leads.refl le_rfl⟩
  | cons y ys =>
      refine ⟨.described, Phase.noConfusion, ?_⟩
      have hfirst : Leads (.block b .titled) b.path.length [.description] [y.part]
          [(.block b .titled, y.token)] (.block b .described) := Leads.token henter y.kind_eq
      have hrest := Leads.lines hstay ys
      rw [show (State.block b .described).path.length = b.path.length + 1 from
        List.length_append] at hrest
      exact Leads.node [] (hfirst.append hrest)

theorem Head.leads (ha : s.Offers k a) (hkind : a.kind = kind) (hother : kind ≠ .other) {b : Block}
    (hnext : a.next = .block b .titled) (x : Head kind) :
    ∃ p, Leads s k a.opens x.parts (x.spots b) (.block b p) := by
  obtain ⟨hempty, _, _, hidles⟩ := block_moves b
  have htitle := Leaf.leads ha hkind hother x.title
  have hlevel := ha.level
  rw [hnext] at htitle hlevel
  have hblanks : Leads (.block b .titled) b.path.length [] (x.blanks.map Leaf.part) []
      (.block b .titled) := Leads.row (Leaf.leads hempty rfl TokenKind.noConfusion) x.blanks
  obtain ⟨p, hp, hdescription⟩ := x.leads_description b
  have hfront := hblanks.append hdescription
  cases hremarks : x.remarks with
  | none =>
      refine ⟨p, ?_⟩
      have h := htitle.append (hlevel ▸ hfront)
      simpa [Head.parts, hremarks] using h
  | some r =>
      refine ⟨.commented, ?_⟩
      have hremark : Leads (.block b p) b.path.length [] [r.1.part] [] (.block b .commented) :=
        Leaf.leads (comment_mem_moves b hp) rfl TokenKind.noConfusion r.1
      have hback := hremark.append (leads_gaps hidles r.2)
      have h := htitle.append (hlevel ▸ hfront.append hback)
      simpa [Head.parts, hremarks] using h

theorem Table.leads (ha : s.Offers k a) (hkind : a.kind = .tableRow)
    (hrow : a.next.Offers a.next.path.length (stay .tableRow a.next)) (hidles : Idles a.next)
    (x : Table) : Leads s k a.opens x.parts [] a.next := by
  have hfirst := Leaf.leads ha hkind TokenKind.noConfusion x.first
  have hline : ∀ y : TableLine, Leads a.next a.next.path.length [] [y.part] [] a.next := by
    intro y
    cases y with
    | row y => exact Leaf.leads hrow rfl TokenKind.noConfusion y
    | gap y => exact y.leads hidles
  have hrest := Leads.row hline x.rest
  rw [← ha.level] at hrest
  exact hfirst.append hrest

/-- The moves for the argument of a step. -/
theorem step_moves (o : StepOwner) :
    ((State.step o).Offers (State.step o).path.length
        (enter .tableRow [.dataTable] (.dataTable o)) ∧
      (State.dataTable o).Offers (State.dataTable o).path.length
        (stay .tableRow (.dataTable o))) ∧
    ((State.step o).Offers (State.step o).path.length
        (enter .docStringSeparator [.docString] (.docString o)) ∧
      (State.docString o).Offers (State.docString o).path.length (stay .other (.docString o)) ∧
      (State.docString o).Offers (State.docString o).path.length
        (stay .docStringSeparator (.docStringEnd o))) ∧
    Idles (.step o) ∧ Idles (.dataTable o) ∧ Idles (.docStringEnd o) := by
  cases o <;> decide

theorem DocString.leads (o : StepOwner) (x : DocString) :
    Leads (.step o) (State.step o).path.length [.docString] x.parts (x.spots o)
      (.docStringEnd o) := by
  obtain ⟨_, ⟨henter, hstay, hend⟩, _, _, hidles⟩ := step_moves o
  have hlength : (State.step o).path.length + 1 = (State.docString o).path.length := by
    cases o <;> rfl
  have hopener : Leads (.step o) (State.step o).path.length [.docString] [x.opener.part] []
      (.docString o) := Leaf.leads henter rfl TokenKind.noConfusion x.opener
  have hlines : Leads _ _ _ _ (x.spots o) _ := Leads.lines hstay x.lines
  have hcloser := Leaf.leads hend rfl TokenKind.noConfusion x.closer
  have hback := hlines.append (hcloser.append (leads_gaps hidles x.gaps))
  rw [← hlength, List.append_nil, List.append_nil] at hback
  exact hopener.append hback

/-! ## Steps -/

/-- A state in which a part of the block is complete: all that may follow it may come next. -/
def Rests (b : Block) (s : State) : Prop :=
  ∀ a ∈ ending [] b :: followers [] b, s.Offers (b.path.length - a.closes.length) a

/-- A state in which a step may come next, or what may follow the last step. -/
def TakesSteps (o : StepOwner) (s : State) : Prop :=
  s.Offers o.block.path.length (newStep [] o) ∧ Rests o.block s

instance (b : Block) : DecidablePred (Rests b) := fun s =>
  inferInstanceAs (Decidable (∀ a ∈ ending [] b :: followers [] b,
    s.Offers (b.path.length - a.closes.length) a))

instance (o : StepOwner) : DecidablePred (TakesSteps o) := fun _ =>
  inferInstanceAs (Decidable (_ ∧ _))

/-- What may follow the block has a move like `a`, and this leaves the first `k` rules of the block
open. -/
def Allows (b : Block) (k : Nat) (a : Move) : Prop :=
  ∃ c ∈ ending [] b :: followers [] b,
    b.path.length - c.closes.length = k ∧ { c with closes := [] } = { a with closes := [] }

instance (b : Block) (k : Nat) (a : Move) : Decidable (Allows b k a) :=
  inferInstanceAs (Decidable (∃ c ∈ ending [] b :: followers [] b, _ ∧ _))

theorem Rests.offers {b : Block} (hs : Rests b s) (h : Allows b k a) : s.Offers k a := by
  obtain ⟨c, hc, rfl, hsame⟩ := h
  obtain ⟨hle, hmem⟩ := hs c hc
  simp only [Move.mk.injEq, true_and] at hsame
  obtain ⟨hkind, hguarded, hopens, hnext⟩ := hsame
  rw [hkind, hguarded, hopens, hnext] at hmem
  exact ⟨hle, hmem⟩

/-- What may follow one block may follow another one that offers as much. -/
theorem Rests.follow {b b' : Block} (hs : Rests b s)
    (h : ∀ a ∈ ending [] b' :: followers [] b', Allows b (b'.path.length - a.closes.length) a) :
    Rests b' s :=
  fun a ha => hs.offers (h a ha)

theorem rests_block (b : Block) (p : Phase) : Rests b (.block b p) := by
  cases b <;> cases p <;> decide

theorem takesSteps_block (o : StepOwner) (p : Phase) : TakesSteps o (.block o.block p) := by
  cases o <;> cases p <;> decide

theorem takesSteps (o : StepOwner) : TakesSteps o (.step o) ∧ TakesSteps o (.dataTable o) ∧
    TakesSteps o (.docStringEnd o) := by
  cases o <;> decide

theorem Argument.leads (o : StepOwner) (x : Argument) :
    ∃ s', TakesSteps o s' ∧
      Leads (.step o) (State.step o).path.length [] [x.part] (x.spots o) s' := by
  obtain ⟨⟨hrow, hrows⟩, _, _, hidles, _⟩ := step_moves o
  obtain ⟨_, htable, hdocString⟩ := takesSteps o
  cases x with
  | table x =>
      exact ⟨.dataTable o, htable, Leads.node [] (x.leads hrow rfl hrows hidles)⟩
  | docString x => exact ⟨.docStringEnd o, hdocString, Leads.node [] (x.leads o)⟩

theorem Step.leads {o : StepOwner} (hs : TakesSteps o s) (x : Step) :
    ∃ s', TakesSteps o s' ∧ Leads s o.block.path.length [] [x.part] (x.spots o) s' := by
  obtain ⟨_, _, hidles, _⟩ := step_moves o
  have hline := Leaf.leads hs.1 rfl TokenKind.noConfusion x.line
  have hlength : o.block.path.length + 1 = (State.step o).path.length := by cases o <;> rfl
  obtain ⟨s', hs', hargument⟩ : ∃ s', TakesSteps o s' ∧
      Leads (.step o) (State.step o).path.length [] (x.argument.toList.map Argument.part)
        (x.spots o) s' := by
    cases hx : x.argument with
    | none => exact ⟨.step o, (takesSteps o).1, by simpa [Step.spots, hx] using Leads.refl le_rfl⟩
    | some y => simpa [Step.spots, hx] using y.leads o
  refine ⟨s', hs', ?_⟩
  have h := hline.append (hlength ▸ (leads_gaps hidles x.gaps).append hargument)
  exact Leads.node [] h

theorem leads_steps {o : StepOwner} (hs : TakesSteps o s) (xs : List Step) :
    ∃ s', TakesSteps o s' ∧
      Leads s o.block.path.length [] (xs.map Step.part) (xs.flatMap (Step.spots o)) s' :=
  Leads.list (P := TakesSteps o) (fun _ hs => hs.1.1)
    (fun x _ hs => x.leads hs) xs hs

/-! ## Blocks -/

theorem leads_tags (ha : s.Offers k a) (hkind : a.kind = .tagLine)
    (htag : a.next.Offers a.next.path.length (stay .tagLine a.next)) (hidles : Idles a.next)
    (x : TagLine) (xs : List TagLine) :
    Leads s k a.opens ((x :: xs).flatMap TagLine.parts) [] a.next := by
  have hfirst := Leaf.leads ha hkind TokenKind.noConfusion x.line
  have hgaps := leads_gaps hidles x.gaps
  have hrest : Leads a.next a.next.path.length [] (xs.flatMap TagLine.parts) [] a.next := by
    induction xs with
    | nil => exact Leads.refl le_rfl
    | cons y ys ih =>
        have hline := Leaf.leads htag rfl TokenKind.noConfusion y.line
        exact (hline.append (leads_gaps hidles y.gaps)).append ih
  have h := hgaps.append hrest
  rw [← ha.level] at h
  exact hfirst.append h

/-- A definition is a rule around tags, if there are any, and the rule of what is defined. It is read
like what is defined, and the tags come in between if there are any. -/
theorem leads_definition {r i : Rule} {ps : List Part} {vs : List (State × Token)}
    {P : State → Prop} (xs : List TagLine) (ha : s.Offers k a) (hkind : a.kind = .tagLine)
    (hopens : a.opens = [r, .tags]) (htag : a.next.Offers a.next.path.length (stay .tagLine a.next))
    (hidles : Idles a.next) (huntagged : ∃ s', P s' ∧ Leads s k [r, i] ps vs s')
    (htagged : ∃ s', P s' ∧ Leads a.next (k + 1) [i] ps vs s') :
    ∃ s', P s' ∧ Leads s k [] [.node r (tagParts xs ++ [.node i ps])] vs s' := by
  cases xs with
  | nil =>
      obtain ⟨s', hs', h⟩ := huntagged
      exact ⟨s', hs', Leads.node [] (Leads.node [r] h)⟩
  | cons x xs =>
      obtain ⟨s', hs', h⟩ := htagged
      have htags := leads_tags ha hkind htag hidles x xs
      rw [hopens] at htags
      refine ⟨s', hs', Leads.node [] ?_⟩
      exact (Leads.node [r] htags).append (Leads.node [] h)

/-- Examples behind their tags. -/
theorem Examples.leads_body (ha : s.Offers k a) (hkind : a.kind = .examplesLine)
    (hnext : a.next = .block .examples .titled) (x : Examples) :
    ∃ s', Rests .examples s' ∧ Leads s k a.opens
      (x.head.parts ++ x.table.toList.map fun t => .node .examplesTable t.parts) x.spots s' := by
  obtain ⟨p, hhead⟩ := x.head.leads ha hkind TokenKind.noConfusion hnext
  cases x.table with
  | none => exact ⟨.block .examples p, rests_block _ p, by simpa [Examples.spots] using hhead⟩
  | some t =>
      have hrow : (State.block .examples p).Offers 7
          (enter .tableRow [.examplesTable] .examplesTable) := by cases p <;> decide
      have htable : Leads (.block .examples p) 7 [] [.node .examplesTable t.parts] []
          .examplesTable := Leads.node [] (t.leads hrow rfl (by decide) (by decide))
      have hlevel : k + a.opens.length = 7 := by rw [ha.level, hnext]; rfl
      refine ⟨.examplesTable, by decide, ?_⟩
      have h := hhead.append (by rw [hlevel]; exact htable)
      simpa [Examples.spots] using h

theorem Examples.leads (hs : Rests .examples s) (x : Examples) :
    ∃ s', Rests .examples s' ∧ Leads s 5 [] [x.part] x.spots s' := by
  have htags : s.Offers 5
      { kind := .tagLine, guarded := true, opens := [.examplesDefinition, .tags],
        next := .examplesTags } := hs.offers (by decide)
  have htitle : s.Offers 5
      (enter .examplesLine [.examplesDefinition, .examples] (.block .examples .titled)) :=
    hs.offers (by decide)
  have hbehind : State.examplesTags.Offers 6
      (enter .examplesLine [.examples] (.block .examples .titled)) := by decide
  exact leads_definition x.tags htags rfl rfl (by decide) (by decide)
    (x.leads_body htitle rfl rfl) (x.leads_body hbehind rfl rfl)

theorem Background.leads (hs : Rests .feature s) (x : Background) :
    ∃ s', Rests .background s' ∧ Leads s 3 [] [x.part] x.spots s' := by
  have htitle : s.Offers 3 (enter .backgroundLine [.background] (.block .background .titled)) :=
    hs.offers (by decide)
  obtain ⟨p, hhead⟩ := x.head.leads htitle rfl TokenKind.noConfusion rfl
  obtain ⟨s', hs', hsteps⟩ := leads_steps (takesSteps_block .background p) x.steps
  exact ⟨s', hs'.2, Leads.node [] (hhead.append hsteps)⟩

/-- A scenario or a scenario outline behind its tags. -/
theorem leads_scenario_body {o : StepOwner} (ha : s.Offers k a) (hkind : a.kind = kind)
    (hother : kind ≠ .other) (hnext : a.next = .block o.block .titled) (head : Head kind)
    (steps : List Step) :
    ∃ s', TakesSteps o s' ∧ Leads s k a.opens (head.parts ++ steps.map Step.part)
      (head.spots o.block ++ steps.flatMap (Step.spots o)) s' := by
  obtain ⟨p, hhead⟩ := head.leads ha hkind hother hnext
  obtain ⟨s', hs', hsteps⟩ := leads_steps (takesSteps_block o p) steps
  have hlevel := ha.level
  rw [hnext] at hlevel
  exact ⟨s', hs', hhead.append (hlevel ▸ hsteps)⟩

/-- Whatever a part belongs to, scenarios may follow it. -/
theorem Rests.scenario {b : Block} (hs : Rests b s) : Rests .scenario s := by
  refine hs.follow ?_
  cases b <;> decide

/-- The first examples follow an outline as later ones follow examples. -/
theorem Rests.examples (hs : Rests .outline s) : Rests .examples s := hs.follow (by decide)

theorem leads_outline_body (ha : s.Offers k a) (hkind : a.kind = .scenarioOutlineLine)
    (hnext : a.next = .block .outline .titled) (head : Head .scenarioOutlineLine)
    (steps : List Step) (examples : List Examples) :
    ∃ s', Rests .scenario s' ∧ Leads s k a.opens
      (head.parts ++ (steps.map Step.part ++ examples.map Examples.part))
      (head.spots .outline ++
        (steps.flatMap (Step.spots .outline) ++ examples.flatMap Examples.spots)) s' := by
  obtain ⟨mid, hmid, hfront⟩ :=
    leads_scenario_body (o := .outline) ha hkind TokenKind.noConfusion hnext head steps
  obtain ⟨s', hs', hexamples⟩ := Leads.list (P := Rests .examples)
    (fun _ hs => (hs.offers (a := enter .examplesLine [.examplesDefinition, .examples]
      (.block .examples .titled)) (by decide)).1)
    (fun x _ hs => Examples.leads hs x) examples hmid.2.examples
  have hlevel : k + a.opens.length = 5 := by rw [ha.level, hnext]; rfl
  refine ⟨s', hs'.scenario, ?_⟩
  have h := hfront.append (by rw [hlevel]; exact hexamples)
  rw [List.append_assoc, List.append_assoc] at h
  exact h

theorem Scenario.leads (hs : Rests .scenario s) (x : Scenario) :
    ∃ s', Rests .scenario s' ∧ Leads s 3 [] [x.part] x.spots s' := by
  have htags : s.Offers 3 (enter .tagLine [.scenarioDefinition, .tags] .scenarioTags) :=
    hs.offers (by decide)
  cases x with
  | plain tags head steps =>
      have htitle : s.Offers 3
          (enter .scenarioLine [.scenarioDefinition, .scenario] (.block .scenario .titled)) :=
        hs.offers (by decide)
      have hbehind : State.scenarioTags.Offers 4
          (enter .scenarioLine [.scenario] (.block .scenario .titled)) := by decide
      obtain ⟨s', hs', h⟩ := leads_definition tags htags rfl rfl (by decide) (by decide)
        (leads_scenario_body (o := .scenario) htitle rfl TokenKind.noConfusion rfl head steps)
        (leads_scenario_body (o := .scenario) hbehind rfl TokenKind.noConfusion rfl head steps)
      exact ⟨s', hs'.2, h⟩
  | outline tags head steps examples =>
      have htitle : s.Offers 3 (enter .scenarioOutlineLine
          [.scenarioDefinition, .scenarioOutline] (.block .outline .titled)) :=
        hs.offers (by decide)
      have hbehind : State.scenarioTags.Offers 4
          (enter .scenarioOutlineLine [.scenarioOutline] (.block .outline .titled)) := by decide
      exact leads_definition tags htags rfl rfl (by decide) (by decide)
        (leads_outline_body htitle rfl rfl head steps examples)
        (leads_outline_body hbehind rfl rfl head steps examples)

/-! ## The document -/

/-- What stands in front of the title of a feature, if anything does. -/
theorem Feature.leads_headerParts (x : Feature) :
    (x.headerParts = [] ∧ x.header = none ∧ x.tags = []) ∨
      ∃ s' : State, s'.Offers 4 (stay .featureLine (.block .feature .titled)) ∧
        Leads .start 2 [.feature, .featureHeader] x.headerParts [] s' := by
  have htagged : ∀ {s : State} {k : Nat} {a : Move}, s.Offers k a → a.kind = .tagLine →
      a.next = .featureTags →
      ∀ y ys, Leads s k a.opens (List.flatMap TagLine.parts (y :: ys)) [] .featureTags := by
    intro s k a ha hkind hnext y ys
    have h := leads_tags ha hkind (by rw [hnext]; decide) (by rw [hnext]; decide) y ys
    rw [hnext] at h
    exact h
  cases hheader : x.header with
  | none =>
      cases htags : x.tags with
      | nil => exact .inl ⟨by simp [Feature.headerParts, hheader, htags, tagParts], rfl, rfl⟩
      | cons y ys =>
          refine .inr ⟨.featureTags, by decide, ?_⟩
          have h : Leads .start 2 [.feature, .featureHeader, .tags] _ _ _ :=
            htagged (a := enter .tagLine [.feature, .featureHeader, .tags] .featureTags)
              (by decide) rfl rfl y ys
          simpa [Feature.headerParts, hheader, htags, tagParts] using
            Leads.node [.feature, .featureHeader] h
  | some header =>
      have hlanguage : Leads .start 2 [.feature, .featureHeader] [header.1.part] [] .language :=
        Leaf.leads (a := enter .language [.feature, .featureHeader] .language) (by decide)
          rfl TokenKind.noConfusion header.1
      have hfront := hlanguage.append (leads_gaps (s := .language) (by decide) header.2)
      cases htags : x.tags with
      | nil =>
          refine .inr ⟨.language, by decide, ?_⟩
          simpa [Feature.headerParts, hheader, htags, tagParts] using hfront
      | cons y ys =>
          refine .inr ⟨.featureTags, by decide, ?_⟩
          have h := htagged (s := .language) (k := 4) (a := enter .tagLine [.tags] .featureTags)
            (by decide) rfl rfl y ys
          simpa [Feature.headerParts, hheader, htags, tagParts] using
            hfront.append (Leads.node [] h)

theorem Feature.leads (x : Feature) :
    ∃ s', Rests .scenario s' ∧ Leads .start 2 [] [x.part] x.spots s' := by
  obtain ⟨p, hheader⟩ : ∃ p, Leads .start 2 [.feature] [.node .featureHeader
      (x.headerParts ++ x.head.parts)] (x.head.spots .feature) (.block .feature p) := by
    rcases x.leads_headerParts with ⟨hnil, _⟩ | ⟨mid, hmid, hfront⟩
    · obtain ⟨p, hhead⟩ := x.head.leads (s := .start) (k := 2)
        (a := enter .featureLine [.feature, .featureHeader] (.block .feature .titled))
        (by decide) rfl TokenKind.noConfusion rfl
      rw [hnil]
      exact ⟨p, Leads.node [.feature] hhead⟩
    · obtain ⟨p, hhead⟩ := x.head.leads hmid rfl TokenKind.noConfusion rfl
      exact ⟨p, Leads.node [.feature] (hfront.append hhead)⟩
  obtain ⟨mid, hmid, hbackground⟩ : ∃ mid, Rests .scenario mid ∧
      Leads (.block .feature p) 3 [] (x.background.toList.map Background.part)
        (x.background.toList.flatMap Background.spots) mid := by
    cases x.background with
    | none => exact ⟨_, (rests_block .feature p).scenario, Leads.refl (by cases p <;> decide)⟩
    | some y =>
        obtain ⟨mid, hmid, h⟩ := y.leads (rests_block .feature p)
        exact ⟨mid, hmid.scenario, by simpa using h⟩
  obtain ⟨s', hs', hscenarios⟩ := Leads.list (P := Rests .scenario)
    (fun _ hs => (hs.offers (a := enter .tagLine [.scenarioDefinition, .tags] .scenarioTags)
      (by decide)).1)
    (fun y _ hs => Scenario.leads hs y) x.scenarios hmid
  exact ⟨s', hs', Leads.node [] (hheader.append (hbackground.append hscenarios))⟩

theorem Document.leads (x : Document) : Leads .start 2 [] x.parts x.spots .finished := by
  have hgaps : Leads .start 2 [] (x.gaps.map Gap.part) [] .start := leads_gaps (by decide) x.gaps
  obtain ⟨s', hs', hfeature⟩ : ∃ s' : State, s'.Offers 2 (stay .eof .finished) ∧
      Leads .start 2 [] (x.feature.toList.map Feature.part) x.spots s' := by
    unfold Document.spots
    cases x.feature with
    | none => exact ⟨.start, by decide, Leads.refl (by decide)⟩
    | some y =>
        obtain ⟨s', hs', h⟩ := y.leads
        exact ⟨s', hs'.offers (by decide), by simpa using h⟩
  have heof : Leads s' 2 [] [x.eof.part] [] .finished :=
    Leaf.leads hs' rfl TokenKind.noConfusion x.eof
  simpa [Document.parts] using hgaps.append (hfeature.append heof)

/-- Every layout has a trail, along which the builder is told its parts. -/
theorem Document.exists_trail (x : Document) :
    ∃ xs, Trail .start xs .finished ∧ xs.map Stride.token = x.tokens ∧
      xs.flatMap Stride.calls = Part.callsAll x.parts ∧ xs.filterMap Stride.spot? = x.spots := by
  obtain ⟨_, _, xs, htrail, htokens, hcalls, hspots⟩ := x.leads
  refine ⟨xs, htrail, htokens, ?_, hspots⟩
  simpa [State.closings, State.path] using hcalls

end Layout

end FeatureFile
