import FeatureFile.Proofs.Closing

/-!
# Tables of one width

What holds of all rows that a document builder is handed holds of all rows in its open nodes
(`DocumentBuilder.Rows`).

The builder refuses a table whose rows differ in length. If all rows that it is ever handed have one
length there is no such table, and then a healthy builder refuses nothing at all
(`DocumentBuilder.Healthy.feed_even`).
-/

namespace FeatureFile

/-- The property holds of all rows in the node. -/
def Node.Rows (P : Token → Prop) (n : Node) : Prop := ∀ t, .token .tableRow t ∈ n.items → P t

/-- The rows in the node have `k` cells each. -/
def Node.Even (k : Nat) (n : Node) : Prop :=
  ∀ t, .token .tableRow t ∈ n.items → (Node.itemsOf t).length = k

theorem unevenRow_eq_none {k : Nat} {rows : List Row} (h : ∀ r ∈ rows, r.cells.length = k) :
    unevenRow rows = none := by
  cases rows with
  | nil => rfl
  | cons row rows =>
      rw [unevenRow, Option.map_eq_none_iff, List.find?_eq_none]
      intro r hr
      rw [h r (List.mem_cons_of_mem _ hr), h row List.mem_cons_self]
      simp

theorem exists_length_of_unevenRow {rows : List Row} (h : unevenRow rows = none) :
    ∃ k, ∀ r ∈ rows, r.cells.length = k := by
  cases rows with
  | nil => exact ⟨0, List.forall_mem_nil _⟩
  | cons first rest =>
      rw [unevenRow, Option.map_eq_none_iff, List.find?_eq_none] at h
      refine ⟨first.cells.length, List.forall_mem_cons.mpr ⟨rfl, fun r hr => ?_⟩⟩
      simpa using h r hr

namespace Node

variable {n : Node} {k : Nat} {P : Token → Prop}

theorem mem_of_tokensOf {kind : TokenKind} {items : List NodeItem} {ts : List Token}
    (h : tokensOf kind items = .ok ts) : ∀ t ∈ ts, .token kind t ∈ items := by
  induction items generalizing ts with
  | nil =>
      cases h
      intro t ht
      cases ht
  | cons i is ih =>
      unfold tokensOf at h
      split at h
      · rename_i hl
        split at h
        · rename_i kind' u
          cases hrest : tokensOf kind is with
          | error fault =>
              rw [hrest] at h
              cases h
          | ok us =>
              rw [hrest] at h
              cases h
              cases hl
              intro t ht
              rcases List.mem_cons.mp ht with rfl | ht
              · exact List.mem_cons_self
              · exact List.mem_cons_of_mem _ (ih hrest t ht)
        · cases h
      · intro t ht
        exact List.mem_cons_of_mem _ (ih h t ht)

theorem Even.unevenRow_rows (h : n.Even k) {ts : List Token} (hts : n.tokens .tableRow = .ok ts) :
    unevenRow (ts.map rowOf) = none := by
  refine unevenRow_eq_none (k := k) fun r hr => ?_
  obtain ⟨t, ht, rfl⟩ := List.mem_map.mp hr
  rw [rowOf, List.length_map]
  exact h t (mem_of_tokensOf hts t ht)

theorem toItem_ne_token {item : NodeItem} (h : n.toItem = .ok item) (kind : TokenKind) (t : Token) :
    item ≠ .token kind t := by
  have hpart : ∀ {α : Type} (x : Except Fault α) (f : α → NodeItem),
      (x.map f).mapError Refusal.fault = .ok item → ∃ a, f a = item := by
    intro α x f heq
    cases x with
    | error fault => cases heq
    | ok a => exact ⟨a, Except.ok.inj heq⟩
  have htable : ∀ {α : Type} (x : Except Refusal α) (f : α → NodeItem),
      x.map f = .ok item → ∃ a, f a = item := by
    intro α x f heq
    cases x with
    | error refusal => cases heq
    | ok a => exact ⟨a, Except.ok.inj heq⟩
  unfold toItem at h
  split at h
  case h_3 | h_7 =>
      obtain ⟨a, rfl⟩ := htable _ _ h
      exact NodeItem.noConfusion
  all_goals
    first
    | obtain ⟨a, rfl⟩ := hpart _ _ h
      exact NodeItem.noConfusion
    | cases h
      exact NodeItem.noConfusion

theorem Rows.add {item : NodeItem} (h : n.Rows P)
    (hitem : ∀ t, item = .token .tableRow t → P t) : (n.add item).Rows P := by
  intro t ht
  rcases List.mem_append.mp ht with ht | ht
  · exact h t ht
  · exact hitem t (List.mem_singleton.mp ht).symm

end Node

namespace DocumentBuilder

variable {b : DocumentBuilder} {k : Nat} {P : Token → Prop}

/-- The property holds of all rows in open nodes. -/
def Rows (P : Token → Prop) (b : DocumentBuilder) : Prop := ∀ n ∈ b.stack, n.Rows P

/-- The rows in all open nodes have `k` cells each. -/
def Even (k : Nat) (b : DocumentBuilder) : Prop := ∀ n ∈ b.stack, n.Even k

theorem Rows.add {item : NodeItem} (h : b.Rows P)
    (hitem : ∀ t, item = .token .tableRow t → P t) : (b.add item).1.Rows P := by
  unfold DocumentBuilder.add
  split
  · exact h
  · rename_i top below hstack
    rw [Rows, hstack] at h
    intro n hn
    rcases List.mem_cons.mp hn with rfl | hn
    · exact (h top List.mem_cons_self).add hitem
    · exact h n (List.mem_cons_of_mem _ hn)

theorem Rows.close (h : b.Rows P) : b.close.1.Rows P := by
  unfold DocumentBuilder.close
  split
  · exact h
  · intro n hn
    cases hn
  · rename_i node top below hstack
    rw [Rows, hstack] at h
    have hbelow : Rows P { b with stack := top :: below } :=
      fun n hn => h n (List.mem_cons_of_mem _ hn)
    simp only []
    split
    · exact hbelow
    · rename_i item hitem
      exact hbelow.add fun t ht => absurd ht (Node.toItem_ne_token hitem _ t)

theorem Rows.read {t : Token} (h : b.Rows P) (ht : t.kind? = some .tableRow → P t) :
    (b.read t).1.Rows P := by
  unfold DocumentBuilder.read
  split
  · exact h
  · rename_i reading hreading
    split
    · exact h
    · refine h.add fun u hu => ?_
      obtain ⟨hkind, rfl⟩ := NodeItem.token.inj hu
      refine ht ?_
      rw [Token.kind?, hreading, ← hkind]
      rfl

theorem Rows.receive {c : Call} (h : b.Rows P)
    (hc : ∀ t, c = .read t → t.kind? = some .tableRow → P t) : (receive c b).1.Rows P := by
  cases c with
  | opened r =>
      intro n hn
      rcases List.mem_cons.mp hn with rfl | hn
      · intro t ht
        cases ht
      · exact h n hn
  | closed r => exact h.close
  | read t => exact h.read (hc t rfl)

theorem Even.feed {cs : List Call} (h : b.Even k)
    (hcs : ∀ t, .read t ∈ cs → t.kind? = some .tableRow → (Node.itemsOf t).length = k) :
    (Builder.feed cs b).1.Even k ∧ ∀ r ∈ (Builder.feed cs b).2, ¬ r.IsError := by
  induction cs generalizing b with
  | nil => exact ⟨h, fun r hr => nomatch hr⟩
  | cons c cs ih =>
      have hfirst : (receive c b).1.Even k :=
        Rows.receive h fun t ht => hcs t (ht ▸ List.mem_cons_self)
      have hrest := ih hfirst fun t ht => hcs t (List.mem_cons_of_mem _ ht)
      refine ⟨hrest.1, ?_⟩
      intro r hr herror
      rcases List.mem_append.mp hr with hr | hr
      · rcases refused_uneven (Option.mem_toList.mp hr) with
          ⟨f, rfl⟩ | ⟨n, hn, ts, e, hts, huneven, rfl⟩
        · exact herror
        · rw [(h n hn).unevenRow_rows hts] at huneven
          cases huneven
      · exact hrest.2 r hr herror

/-- With tables of one width a move is not refused at all. -/
theorem Healthy.feed_even {s : State} {a : Move} {t : Token} (h : Healthy s b) (heven : b.Even k)
    (ha : a ∈ s.moves) (ht : a.Serves t)
    (hwidth : a.kind = .tableRow → (Node.itemsOf t).length = k) :
    Healthy a.next (Builder.feed (Run.callsOf a t) b).1 ∧
      (Builder.feed (Run.callsOf a t) b).1.Even k ∧
      (Builder.feed (Run.callsOf a t) b).2 = [] := by
  obtain ⟨hnext, herrors⟩ := h.feed ha ht
  have hread : ∀ u, .read u ∈ Run.callsOf a t → u.kind? = some .tableRow →
      (Node.itemsOf u).length = k := by
    intro u hu hk
    have hu' : u ∈ (Run.callsOf a t).filterMap Call.token? :=
      List.mem_filterMap.mpr ⟨_, hu, rfl⟩
    rw [Run.callsOf_token, List.mem_singleton] at hu'
    subst hu'
    rw [ht.kind] at hk
    exact hwidth (Option.some.inj hk)
  -- Health allows errors only, and even tables allow everything but errors.
  obtain ⟨hsame, hno⟩ := heven.feed hread
  refine ⟨hnext, hsame, List.eq_nil_iff_forall_not_mem.mpr ?_⟩
  intro r hr
  exact hno r hr (herrors r hr)

end DocumentBuilder

end FeatureFile
