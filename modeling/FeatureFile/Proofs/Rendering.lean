import FeatureFile.Proofs.Clarity

/-!
# From what is written to a layout

`Written.Lays o tokens good` says what has been written in the end: lines, and whatever number the
first of them gets when they are read, they are the lines of some phrase for which `good` holds. Its
tokens are read for what they are. Pieces that are written one after the other give phrases one after
the other (`Lays.append`, `Lays.all`), and a single line gives a single token (`Lays.leaf`).

Between blocks a blank line is written. No phrase of the grammar is made of it, so the phrase before
has to take it in (`Absorbs`).
-/

namespace FeatureFile

/-! ## Lines and their numbers -/

/-- A line with a line feed at its end, and no other one. -/
def Line.Whole (l : Line) : Prop := ∃ body, l = body ++ ['\n'] ∧ '\n' ∉ body

theorem Text.lines_flatten {ls : List Line} (h : ∀ l ∈ ls, l.Whole) : lines ls.flatten = ls := by
  induction ls with
  | nil => rfl
  | cons l ls ih =>
      obtain ⟨body, rfl, hbody⟩ := h l List.mem_cons_self
      rw [List.flatten_cons, List.append_assoc, List.singleton_append, lines_append hbody,
        ih fun l hl => h l (List.mem_cons_of_mem _ hl)]

namespace Token

/-- Lines that are numbered one after the other. -/
def onLines (count : Nat) : List Line → List Token
  | [] => []
  | l :: ls => { number := count + 1, line := some l } :: onLines (count + 1) ls

theorem onLines_append (count : Nat) (ls ms : List Line) :
    onLines count (ls ++ ms) = onLines count ls ++ onLines (count + ls.length) ms := by
  induction ls generalizing count with
  | nil => rfl
  | cons l ls ih =>
      rw [List.cons_append, onLines, ih, onLines, List.cons_append, List.length_cons]
      congr 3
      omega

theorem fresh_eq_onLines (count : Nat) (ls : List Line) : Reader.fresh count ls =
    onLines count ls ++ [{ number := count + ls.length + 1, line := none }] := by
  induction ls generalizing count with
  | nil => rfl
  | cons l ls ih =>
      rw [Reader.fresh, ih, onLines, List.cons_append, List.length_cons]
      congr 3
      push_cast
      congr 1
      omega

/-- A token that a layout may hold anywhere but at its end. -/
def Told (t : Token) : Prop := t.kind? = some .other ∨ t.Plain

end Token

/-! ## Pieces of writing -/

/-- There is room for the margins of all lines. -/
def Writer.HasRoom (w : Writer) : Prop := ∀ level ≤ 2, ∃ m, w.margin level = .ok m

/-- A margin of that length is short enough to be counted, and there is room for it. -/
def Writer.Affords (w : Writer) (length : Int) : Prop :=
  -lengthLimit ≤ length ∧ length < lengthLimit ∧ length ≤ w.support.room

instance (w : Writer) (length : Int) : Decidable (w.Affords length) :=
  inferInstanceAs (Decidable (_ ∧ _ ∧ _))

theorem Writer.exists_margin_iff {w : Writer} {level : Nat} :
    (∃ margin, w.margin level = .ok margin) ↔ w.Affords (level * w.indent) := by
  unfold Writer.margin Writer.Affords
  dsimp only
  split
  · next hlimit =>
      rw [Bool.or_eq_true, decide_eq_true_eq, decide_eq_true_eq] at hlimit
      constructor
      · rintro ⟨_, h⟩
        cases h
      · omega
  · next hlimit =>
      rw [Bool.or_eq_true, decide_eq_true_eq, decide_eq_true_eq, not_or] at hlimit
      split
      · next hroom =>
          constructor
          · rintro ⟨_, h⟩
            cases h
          · omega
      · next hroom =>
          refine ⟨fun _ => ?_, fun _ => ⟨_, rfl⟩⟩
          omega

theorem Writer.eq_of_mem_margin (w : Writer) {level : Nat} {margin : Text}
    (h : w.margin level = .ok margin) : ∀ c ∈ margin, c = ' ' := by
  rw [Writer.margin] at h
  split at h
  · cases h
  · split at h
    · cases h
    · cases h
      exact fun c hc => List.eq_of_mem_replicate hc

namespace Written

theorem andThen_assoc (a b c : Written) : (a.andThen b).andThen c = a.andThen (b.andThen c) := by
  obtain ⟨s, f⟩ := a
  obtain ⟨t, g⟩ := b
  cases f with
  | some f => rfl
  | none =>
      cases g with
      | some g => rfl
      | none => simp [andThen]

@[simp] theorem empty_andThen (a : Written) : ({} : Written).andThen a = a := rfl

@[simp] theorem andThen_empty (a : Written) : a.andThen {} = a := by
  obtain ⟨s, f⟩ := a
  cases f with
  | some f => rfl
  | none => simp [andThen]

theorem all_append (as bs : List Written) : all (as ++ bs) = (all as).andThen (all bs) := by
  induction as with
  | nil => rfl
  | cons a as ih => rw [List.cons_append, all, ih, all, andThen_assoc]

/-- What is written are the lines of a phrase for which `good` holds. And it is written, if there is
room. -/
structure Lays {α : Type} (room : Prop) (o : Written) (tokens : α → List Token)
    (good : α → Prop) : Prop where
  fault : room → o.fault = none
  lines : o.fault = none → ∃ ls : List Line, o.text = ls.flatten ∧ (∀ l ∈ ls, l.Whole) ∧
    ∀ count, ∃ x, (tokens x).map Token.bare = Token.onLines count ls ∧
      (∀ t ∈ tokens x, t.Told) ∧ good x

namespace Lays

variable {α β : Type} {room : Prop} {o o' : Written} {f : α → List Token} {g : β → List Token}
  {p : α → Prop} {q : β → Prop}

theorem map (h : o.Lays room f p) (e : α → β) (htokens : ∀ x, p x → g (e x) = f x)
    (hgood : ∀ x, p x → q (e x)) : o.Lays room g q := by
  refine ⟨h.fault, fun hfault => ?_⟩
  obtain ⟨ls, htext, hwhole, hlays⟩ := h.lines hfault
  refine ⟨ls, htext, hwhole, fun count => ?_⟩
  obtain ⟨x, hx, htold, hp⟩ := hlays count
  rw [← htokens x hp] at hx htold
  exact ⟨e x, hx, htold, hgood x hp⟩

theorem nil : Lays room {} (fun _ : Unit => []) fun _ => True :=
  ⟨fun _ => rfl, fun _ => ⟨[], rfl, List.forall_mem_nil _, fun _ =>
    ⟨(), rfl, List.forall_mem_nil _, trivial⟩⟩⟩

theorem append (h : o.Lays room f p) (h' : o'.Lays room g q) :
    (o.andThen o').Lays room (fun x : α × β => f x.1 ++ g x.2) fun x => p x.1 ∧ q x.2 := by
  obtain ⟨hfault, hlines⟩ := h
  obtain ⟨hfault', hlines'⟩ := h'
  refine ⟨fun hroom => ?_, fun hnone => ?_⟩
  · rw [andThen, hfault hroom]
    exact hfault' hroom
  · have hfirst : o.fault = none := by
      rw [andThen] at hnone
      split at hnone
      · next h => exact absurd (h.symm.trans hnone) (Option.some_ne_none _)
      · next h => exact h
    rw [andThen, hfirst] at hnone ⊢
    obtain ⟨ls, htext, hwhole, hlays⟩ := hlines hfirst
    obtain ⟨ms, htext', hwhole', hlays'⟩ := hlines' hnone
    refine ⟨ls ++ ms, ?_, List.forall_mem_append.mpr ⟨hwhole, hwhole'⟩, fun count => ?_⟩
    · rw [List.flatten_append, ← htext, ← htext']
    · obtain ⟨x, hx, htold, hp⟩ := hlays count
      -- The second piece is numbered on from where the first one ends.
      obtain ⟨y, hy, htold', hq⟩ := hlays' (count + ls.length)
      refine ⟨(x, y), ?_, List.forall_mem_append.mpr ⟨htold, htold'⟩, hp, hq⟩
      rw [List.map_append, hx, hy, Token.onLines_append]

/-- Pieces of one sort in a row. -/
theorem all {ι : Type} {w : ι → Written} {p : ι → α → Prop} (as : List ι)
    (h : ∀ a ∈ as, (w a).Lays room f (p a)) :
    (Written.all (as.map w)).Lays room (fun xs : List α => xs.flatMap f)
      fun xs => List.Forall₂ p as xs := by
  induction as with
  | nil => exact nil.map (fun _ => []) (fun _ _ => rfl) fun _ _ => .nil
  | cons a as ih =>
      have hfirst := h a List.mem_cons_self
      have hrest := ih fun b hb => h b (List.mem_cons_of_mem _ hb)
      exact (hfirst.append hrest).map (fun x => x.1 :: x.2) (fun _ _ => rfl) fun _ hx => .cons hx.1 hx.2

/-- A single line is a single token. -/
theorem leaf {w : Writer} {level : Nat} (hlevel : level ≤ 2) {core : Text} (kind : TokenKind)
    (p : Token → Prop) (hcore : Text.trimLeft core = core) (hnewline : '\n' ∉ core)
    (hkind : kind ≠ .language ∧ kind ≠ .comment)
    (hreads : ∀ margin, (∀ c ∈ margin, isBlank c = true) → ∃ reading, reading.kind = kind ∧
      (written margin core).ReadsAs reading ∧ ∀ t : Token, t.reading = some reading → p t) :
    (w.line level core).Lays w.HasRoom (fun x : Layout.Leaf kind => [x.token])
      fun x => p x.token := by
  rw [Writer.line]
  cases hmargin : w.margin level with
  | error fault =>
      refine ⟨fun h => ?_, fun hnone => by cases hnone⟩
      obtain ⟨m, hm⟩ := h level hlevel
      rw [hm] at hmargin
      cases hmargin
  | ok margin =>
      -- The margin is blank, so it adds neither a line nor a text.
      have hspace := w.eq_of_mem_margin hmargin
      have hblanks : ∀ c ∈ margin, isBlank c = true := by
        intro c hc
        rw [hspace c hc]
        rfl
      have hline : '\n' ∉ margin ++ core := by
        rw [List.mem_append, not_or]
        exact ⟨fun h => absurd (hspace _ h) (by decide), hnewline⟩
      obtain ⟨reading, rfl, hreads, hp⟩ := hreads margin hblanks
      refine ⟨fun _ => rfl, fun _ => ⟨[written margin core], ?_, ?_, fun count => ?_⟩⟩
      · rw [given, hcore, written, List.flatten_singleton, ← List.append_assoc]
        rfl
      · rw [List.forall_mem_singleton]
        exact ⟨margin ++ core, (List.append_assoc ..).symm, hline⟩
      · let t : Token :=
          { number := count + 1, line := some (written margin core), reading := some reading }
        refine ⟨⟨t, rfl⟩, rfl, ?_, hp t rfl⟩
        rw [List.forall_mem_singleton]
        exact .inr ⟨_, reading, rfl, rfl, hkind, hreads⟩

end Lays

end Written

/-! ## Blank lines -/

/-- Every such phrase can take in a blank line behind it. -/
def Absorbs {α : Type} (tokens : α → List Token) (good : α → Prop) : Prop :=
  ∀ x, good x → ∀ number, ∃ x' t, tokens x' = tokens x ++ [t] ∧
    t.bare = { number, line := some (written [] []) } ∧ t.Told ∧ good x'

theorem Written.Lays.blank {α : Type} {room : Prop} {o : Written} {f : α → List Token}
    {p : α → Prop} (h : o.Lays room f p) (habsorbs : Absorbs f p) :
    (o.andThen (.line [])).Lays room f p := by
  obtain ⟨hfault, hlines⟩ := h
  have hnone : (o.andThen (.line [])).fault = o.fault := by
    rw [andThen]
    split
    · rfl
    · next h => rw [h]; rfl
  refine ⟨fun hroom => hnone.trans (hfault hroom), fun h => ?_⟩
  rw [hnone] at h
  rw [andThen, h]
  obtain ⟨ls, htext, hwhole, hlays⟩ := hlines h
  refine ⟨ls ++ [written [] []], ?_, ?_, fun count => ?_⟩
  · rw [List.flatten_append, ← htext]
    rfl
  · rw [List.forall_mem_append, List.forall_mem_singleton]
    exact ⟨hwhole, [], rfl, List.not_mem_nil⟩
  · obtain ⟨x, hx, htold, hp⟩ := hlays count
    obtain ⟨x', t, htokens, ht, hplain, hp'⟩ := habsorbs x hp (count + ls.length + 1)
    refine ⟨x', ?_, ?_, hp'⟩
    · rw [htokens, List.map_append, hx, List.map_singleton, ht, Token.onLines_append]
      rfl
    · rw [htokens, List.forall_mem_append, List.forall_mem_singleton]
      exact ⟨htold, hplain⟩

/-- Of phrases in a row the last one takes the blank line in. -/
theorem Absorbs.list {ι α : Type} {f : α → List Token} {p : ι → α → Prop}
    (h : ∀ a, Absorbs f (p a)) {as : List ι} (hne : as ≠ []) :
    Absorbs (fun xs : List α => xs.flatMap f) fun xs => List.Forall₂ p as xs := by
  induction as with
  | nil => exact absurd rfl hne
  | cons a as ih =>
      intro xs hxs number
      cases hxs with
      | @cons _ x _ xs hx hrest =>
          cases as with
          | nil =>
              cases hrest
              obtain ⟨x', t, htokens, ht, htold, hx'⟩ := h a x hx number
              refine ⟨[x'], t, ?_, ht, htold, .cons hx' .nil⟩
              change [x'].flatMap f = [x].flatMap f ++ [t]
              rw [List.flatMap_singleton, List.flatMap_singleton, htokens]
          | cons b as =>
              obtain ⟨xs', t, htokens, ht, htold, hxs'⟩ := ih (List.cons_ne_nil _ _) xs hrest number
              refine ⟨x :: xs', t, ?_, ht, htold, .cons hx hxs'⟩
              change (x :: xs').flatMap f = (x :: xs).flatMap f ++ [t]
              rw [List.flatMap_cons, show xs'.flatMap f = _ from htokens, List.flatMap_cons,
                List.append_assoc]

/-- If there are no phrases in the row, what stands before takes the blank line in. -/
theorem Absorbs.pair {ι α β : Type} {f : α → List Token} {g : β → List Token} {p : α → Prop}
    {q : ι → β → Prop} (hf : Absorbs f p) (hg : ∀ a, Absorbs g (q a)) (as : List ι) :
    Absorbs (fun x : α × List β => f x.1 ++ x.2.flatMap g)
      fun x => p x.1 ∧ List.Forall₂ q as x.2 := by
  rintro ⟨x, ys⟩ ⟨hx, hys⟩ number
  cases as with
  | nil =>
      obtain rfl := List.forall₂_nil_left_iff.mp hys
      obtain ⟨x', t, htokens, ht, htold, hx'⟩ := hf x hx number
      refine ⟨(x', []), t, ?_, ht, htold, hx', .nil⟩
      simpa using htokens
  | cons a as =>
      obtain ⟨ys', t, htokens, ht, htold, hys'⟩ :=
        Absorbs.list hg (List.cons_ne_nil a as) ys hys number
      refine ⟨(x, ys'), t, ?_, ht, htold, hx, hys'⟩
      rw [List.append_assoc]
      exact congrArg _ htokens

end FeatureFile
