import FeatureFile.Proofs.Verdict

/-!
# How a state decides

`Trial.run` tries moves one after the other and carries the token, the matcher and the reader
along, so a decision looks as if it depended on everything that was tried before. It does not. An
answer depends on the line alone, a trial that fails leaves the matcher as it was, and a
trial that succeeds is the last one. What remains of the order is this: no kind tried before the
one that was found could be read.

The one exception is a guarded move. It looks ahead, and if no examples block follows the very
next move is the other reading of a tag line. So a state that has a guarded move looks ahead
exactly once and exactly when it is shown a tag line, and which of the two moves it makes is what
it saw.

`State.decide_decides` says all of this in one place. Nothing behind it opens `Trial.run` again.
-/

namespace FeatureFile

theorem State.mem_all (s : State) : s ∈ State.all :=
  List.mem_of_getElem? (State.all_getElem?_number s)

/-- What is checked for the states one by one holds for all. -/
theorem State.forall_of_all {P : State → Prop} (h : ∀ s ∈ State.all, P s) (s : State) : P s :=
  h s s.mem_all

theorem State.next_eq_finished (s : State) :
    ∀ a ∈ s.moves, a.next = .finished ↔ a.kind = .eof := by
  revert s
  exact State.forall_of_all (by decide)

/-- A header is only expected at the start, and nothing leads back there. -/
theorem State.not_language (s : State) : s ≠ .start → ∀ a ∈ s.moves, a.kind ≠ .language := by
  revert s
  exact State.forall_of_all (by decide)

theorem State.next_ne_start (s : State) : ∀ a ∈ s.moves,
    a.next = .start → s = .start ∧ (a.kind = .comment ∨ a.kind = .empty) := by
  revert s
  exact State.forall_of_all (by decide)

namespace Trial

variable {hidden : List TokenKind} {moves : List Move} {trial : Trial}

/-- What the trial of a list of moves without guards comes to. -/
inductive Ends (hidden : List TokenKind) (start : Trial) (moves : List Move) (res : Trial) :
    Prop where
  /-- A move was found, and no move before it accepts the token. -/
  | found (before : List Move) (a : Move) (after : List Move) (reading : Reading)
      (hmoves : moves = before ++ a :: after) (hmove : res.move = .ok (some a))
      (hask : start.matcher.ask hidden a.kind start.token = .yes reading res.matcher)
      (htoken : res.token = start.token.withReading reading)
      (hbefore : ∀ b ∈ before, (start.matcher.ask hidden b.kind start.token).isYes = false)
  /-- No move accepts the token. -/
  | none (hmove : res.move = .ok none) (hmatcher : res.matcher = start.matcher)
      (hno : ∀ b ∈ moves, (start.matcher.ask hidden b.kind start.token).isYes = false)
  /-- A move that could not be tried ends the trial. -/
  | broken (a : Move) (fault : Fault) (ha : a ∈ moves) (hmove : res.move = .error fault)
      (hask : start.matcher.ask hidden a.kind start.token = .broken fault)

theorem run_cons (move : Move) :
    run hidden (move :: moves) trial =
      match trial.matcher.ask hidden move.kind trial.token with
      | .no => run hidden moves trial
      | .broken fault => { trial with move := .error fault }
      | .unsupported reading =>
        run hidden moves
          { trial with
            token := trial.token.withReading reading
            refused := trial.refused ++ [trial.token.withReading reading] }
      | .yes reading matcher =>
        if move.guarded then
          if (trial.reader.lookAhead (matcher.lookForExamples hidden)).1 then
            { trial with
              token := trial.token.withReading reading
              matcher
              reader := (trial.reader.lookAhead (matcher.lookForExamples hidden)).2
              move := .ok (some move) }
          else
            run hidden moves
              { trial with
                token := trial.token.withReading reading
                matcher
                reader := (trial.reader.lookAhead (matcher.lookForExamples hidden)).2 }
        else { trial with token := trial.token.withReading reading, matcher,
                          move := .ok (some move) } := rfl

/-- What a trial comes to does not depend on how the token was read before. -/
theorem Ends.congr {start mid res : Trial} (h : Ends hidden mid moves res)
    (htoken : mid.token.bare = start.token.bare) (hmatcher : mid.matcher = start.matcher) :
    Ends hidden start moves res := by
  have hsame : ∀ kind, mid.matcher.ask hidden kind mid.token =
      start.matcher.ask hidden kind start.token := by
    intro kind
    rw [hmatcher]
    exact Matcher.ask_congr (Token.line_eq_of_bare_eq htoken)
  cases h with
  | found before a after reading hmoves hmove hask htok hbefore =>
      refine .found before a after reading hmoves hmove (by rw [← hsame]; exact hask) ?_ ?_
      · rw [htok]
        exact Token.withReading_eq_of_bare_eq htoken reading
      · intro b hb
        rw [← hsame]
        exact hbefore b hb
  | none hmove hm hno =>
      refine .none hmove (by rw [hm, hmatcher]) ?_
      intro b hb
      rw [← hsame]
      exact hno b hb
  | broken a fault ha hmove hask =>
      exact .broken a fault ha hmove (by rw [← hsame]; exact hask)

/-- Moves that do not accept the token add nothing to what the moves behind them come to. -/
theorem Ends.prepend {start res : Trial} {front : List Move} (h : Ends hidden start moves res)
    (hfront : ∀ b ∈ front, (start.matcher.ask hidden b.kind start.token).isYes = false) :
    Ends hidden start (front ++ moves) res := by
  cases h with
  | found before a after reading hmoves hmove hask htok hbefore =>
      refine .found (front ++ before) a after reading ?_ hmove hask htok ?_
      · rw [hmoves, List.append_assoc]
      · intro b hb
        rcases List.mem_append.mp hb with hb | hb
        · exact hfront b hb
        · exact hbefore b hb
  | none hmove hm hno =>
      refine .none hmove hm ?_
      intro b hb
      rcases List.mem_append.mp hb with hb | hb
      · exact hfront b hb
      · exact hno b hb
  | broken a fault ha hmove hask =>
      exact .broken a fault (List.mem_append_right _ ha) hmove hask

theorem Ends.cons {start res : Trial} {move : Move} (h : Ends hidden start moves res)
    (hno : (start.matcher.ask hidden move.kind start.token).isYes = false) :
    Ends hidden start (move :: moves) res := by
  have hfront : ∀ b ∈ [move], (start.matcher.ask hidden b.kind start.token).isYes = false := by
    intro b hb
    obtain rfl := List.mem_singleton.mp hb
    exact hno
  exact h.prepend hfront

theorem run_ends (hg : ∀ b ∈ moves, b.guarded = false) (h0 : trial.move = .ok none) :
    Ends hidden trial moves (run hidden moves trial) := by
  induction moves generalizing trial with
  | nil => exact .none h0 rfl (fun b hb => nomatch hb)
  | cons move moves ih =>
      have hrest : ∀ b ∈ moves, b.guarded = false := fun b hb => hg b (List.mem_cons_of_mem _ hb)
      rw [run_cons]
      split
      · rename_i hask
        exact (ih hrest h0).cons (by rw [hask]; rfl)
      · rename_i fault hask
        exact .broken move fault List.mem_cons_self rfl hask
      · rename_i reading hask
        refine Ends.cons (Ends.congr (ih hrest ?_) rfl rfl) (by rw [hask]; rfl)
        exact h0
      · rename_i reading matcher hask
        rw [if_neg (by rw [hg move List.mem_cons_self]; decide)]
        exact .found [] move moves reading rfl rfl hask rfl (fun b hb => nomatch hb)

theorem run_reader (hg : ∀ b ∈ moves, b.guarded = false) :
    (run hidden moves trial).reader = trial.reader := by
  induction moves generalizing trial with
  | nil => rfl
  | cons move moves ih =>
      have hrest : ∀ b ∈ moves, b.guarded = false := fun b hb => hg b (List.mem_cons_of_mem _ hb)
      rw [run_cons]
      split
      · exact ih hrest
      · rfl
      · exact ih hrest
      · rw [if_neg (by rw [hg move List.mem_cons_self]; decide)]

theorem run_bare : (run hidden moves trial).token.bare = trial.token.bare := by
  induction moves generalizing trial with
  | nil => rfl
  | cons move moves ih =>
      rw [run_cons]
      split
      · exact ih
      · rfl
      · rw [ih, Token.bare_withReading]
      · split
        · split
          · rfl
          · rw [ih, Token.bare_withReading]
        · rfl

/-- Only the header of an unsupported language is refused. -/
theorem run_refused (hg : ∀ b ∈ moves, b.guarded = true → b.kind = .tagLine)
    (hheader : ∀ reading, trial.matcher.ask hidden .language trial.token ≠ .unsupported reading) :
    (run hidden moves trial).refused = trial.refused := by
  induction moves generalizing trial with
  | nil => rfl
  | cons move moves ih =>
      have hrest : ∀ b ∈ moves, b.guarded = true → b.kind = .tagLine :=
        fun b hb => hg b (List.mem_cons_of_mem _ hb)
      rw [run_cons]
      split
      · exact ih hrest hheader
      · rfl
      · rename_i reading hask
        rw [Matcher.ask_unsupported hask] at hask
        exact absurd hask (hheader reading)
      · rename_i reading matcher hask
        split
        · rename_i hguarded
          split
          · rfl
          · -- A tag line leaves the matcher as it is, so that the header is judged as before.
            have hmatcher : matcher = trial.matcher := by
              rw [hg move List.mem_cons_self hguarded] at hask
              rcases Matcher.ask_tagLine trial.matcher hidden trial.token with htag | ⟨_, htag⟩
              · rw [hask] at htag
                cases htag
              · rw [hask] at htag
                cases htag
                rfl
            refine ih hrest ?_
            rw [hmatcher]
            exact hheader
        · rfl

/-- Nothing is refused where no header is expected. -/
theorem run_refused_of_kinds (hkinds : ∀ b ∈ moves, b.kind ≠ .language) :
    (run hidden moves trial).refused = trial.refused := by
  induction moves generalizing trial with
  | nil => rfl
  | cons move moves ih =>
      have hrest : ∀ b ∈ moves, b.kind ≠ .language := fun b hb => hkinds b (List.mem_cons_of_mem _ hb)
      rw [run_cons]
      split
      · exact ih hrest
      · rfl
      · next reading hask =>
          exact absurd (Matcher.ask_unsupported hask) (hkinds move List.mem_cons_self)
      · split
        · split
          · rfl
          · exact ih hrest
        · rfl

theorem run_append (before after : List Move) (h0 : trial.move = .ok none) :
    run hidden (before ++ after) trial =
      match (run hidden before trial).move with
      | .ok none => run hidden after (run hidden before trial)
      | _ => run hidden before trial := by
  induction before generalizing trial with
  | nil => simp only [List.nil_append, run, h0]
  | cons move moves ih =>
      rw [List.cons_append, run_cons, run_cons]
      split
      · exact ih h0
      · rfl
      · refine ih ?_
        exact h0
      · split
        · split
          · rfl
          · refine ih ?_
            exact h0
        · rfl

end Trial

namespace State

variable {s : State} {hidden : List TokenKind} {t : Token} {m : Matcher} {r : Reader}

/-- Does the state look ahead when it is shown a tag line? -/
def looksAhead (s : State) : Bool := s.moves.any Move.guarded

/-- The place of a kind of token in the order in which a state tries kinds. -/
def rank (s : State) (kind : TokenKind) : Nat := (s.trials.map Move.kind).idxOf kind

@[simp] theorem mem_trials {a : Move} : a ∈ s.trials ↔ a ∈ s.moves := by
  simp only [trials, List.mem_append, List.mem_filter, decide_eq_true_eq, ne_eq,
    decide_not, Bool.not_eq_true', decide_eq_false_iff_not]
  by_cases h : a.kind = .stepLine <;> simp [h]

/-- A state has no guarded move, or it has one, for tag lines, with the other move for tag lines
right behind it. -/
inductive Guards (s : State) : Prop where
  | never (h : ∀ a ∈ s.trials, a.guarded = false)
  | once (before : List Move) (g u : Move) (after : List Move)
      (htrials : s.trials = before ++ g :: u :: after) (hg : g.guarded = true)
      (hgk : g.kind = .tagLine) (hu : u.guarded = false) (huk : u.kind = .tagLine)
      (hbefore : ∀ a ∈ before, a.guarded = false ∧ a.kind ≠ .tagLine)
      (hafter : ∀ a ∈ after, a.guarded = false ∧ a.kind ≠ .tagLine)

/-- The guarded move of a list of trials, with what stands around it. -/
def splitAtGuard (moves : List Move) : List Move × List Move :=
  (moves.takeWhile fun a => !a.guarded, moves.dropWhile fun a => !a.guarded)

theorem guards_of_split {g u : Move} {after : List Move}
    (h : (splitAtGuard s.trials).2 = g :: u :: after) (hg : g.guarded = true)
    (hgk : g.kind = .tagLine) (hu : u.guarded = false) (huk : u.kind = .tagLine)
    (hbefore : ∀ a ∈ (splitAtGuard s.trials).1, a.guarded = false ∧ a.kind ≠ .tagLine)
    (hafter : ∀ a ∈ after, a.guarded = false ∧ a.kind ≠ .tagLine) : s.Guards := by
  refine .once (splitAtGuard s.trials).1 g u after ?_ hg hgk hu huk hbefore hafter
  rw [← h]
  exact (List.takeWhile_append_dropWhile).symm

theorem guards (s : State) : s.Guards := by
  match s with
  | start | language | featureTags | scenarioTags | examplesTags | finished =>
      exact .never (by decide)
  | examplesTable => exact guards_of_split rfl rfl rfl rfl rfl (by decide) (by decide)
  | block b p =>
      cases b with
      | feature | background | scenario => cases p <;> exact .never (by decide)
      | outline | examples =>
          cases p <;> exact guards_of_split rfl rfl rfl rfl rfl (by decide) (by decide)
  | step o | dataTable o | docStringEnd o =>
      cases o with
      | background | scenario => exact .never (by decide)
      | outline => exact guards_of_split rfl rfl rfl rfl rfl (by decide) (by decide)
  | docString o => cases o <;> exact .never (by decide)

theorem kind_of_guarded (s : State) : ∀ a ∈ s.moves, a.guarded = true → a.kind = .tagLine := by
  revert s
  exact State.forall_of_all (by decide)

theorem decide_refused
    (hheader : ∀ reading, m.ask hidden .language t ≠ .unsupported reading) :
    (s.decide hidden t m r).refused = [] :=
  Trial.run_refused (fun b hb => s.kind_of_guarded b (mem_trials.mp hb)) hheader

/-- Only the first state refuses anything. -/
theorem decide_refused_of_ne_start (hs : s ≠ .start) : (s.decide hidden t m r).refused = [] :=
  Trial.run_refused_of_kinds fun b hb => s.not_language hs b (mem_trials.mp hb)

theorem exists_mem_of_rank_lt {before after : List Move} {a : Move} {kind : TokenKind}
    (h : s.trials = before ++ a :: after) (hlt : s.rank kind < s.rank a.kind) :
    ∃ b ∈ before, b.kind = kind := by
  by_cases hmem : kind ∈ before.map Move.kind
  · exact List.mem_map.mp hmem
  · exfalso
    have hk : before.length ≤ s.rank kind := by
      rw [rank, h, List.map_append, List.idxOf_append, if_neg hmem, List.length_map]
      omega
    have ha : s.rank a.kind ≤ before.length := by
      rw [rank, h, List.map_append, List.map_cons, List.idxOf_append]
      split
      · rename_i hin
        have hlen := List.idxOf_lt_length_of_mem hin
        rw [List.length_map] at hlen
        omega
      · rw [List.idxOf_cons_self, List.length_map]
        omega
    omega

theorem looksAhead_eq_false (h : ∀ a ∈ s.trials, a.guarded = false) : s.looksAhead = false := by
  rw [looksAhead, List.any_eq_false]
  intro a ha
  rw [h a (mem_trials.mpr ha)]
  decide

theorem looksAhead_eq_true {g : Move} (hmem : g ∈ s.trials) (hg : g.guarded = true) :
    s.looksAhead = true := by
  rw [looksAhead, List.any_eq_true]
  exact ⟨g, mem_trials.mp hmem, hg⟩

/-- What a state decides about a token. -/
inductive Decides (s : State) (hidden : List TokenKind) (t : Token) (m : Matcher) (r : Reader)
    (d : Trial) : Prop where
  /-- It makes a move. The kinds tried before cannot be read, and if the state looks ahead the
  move says what it saw. -/
  | found (a : Move) (reading : Reading) (ha : a ∈ s.moves) (hmove : d.move = .ok (some a))
      (hask : m.ask hidden a.kind t = .yes reading d.matcher)
      (htoken : d.token = t.withReading reading)
      (hfirst : ∀ kind, s.rank kind < s.rank a.kind → (m.ask hidden kind t).isYes = false)
      (hreader : d.reader =
        if a.kind = .tagLine ∧ s.looksAhead = true then
          (r.lookAhead (m.lookForExamples hidden)).2
        else r)
      (hguard : a.kind = .tagLine → s.looksAhead = true →
        a.guarded = (r.lookAhead (m.lookForExamples hidden)).1)
  /-- It has no move for the token. -/
  | none (hmove : d.move = .ok none) (hmatcher : d.matcher = m) (hreader : d.reader = r)
      (hno : ∀ a ∈ s.moves, (m.ask hidden a.kind t).isYes = false)
  /-- The token cannot be tried. -/
  | broken (a : Move) (fault : Fault) (ha : a ∈ s.moves) (hmove : d.move = .error fault)
      (hask : m.ask hidden a.kind t = .broken fault)

theorem decides_of_ends {before after : List Move} {d : Trial}
    (htrials : s.trials = before ++ after)
    (h : Trial.Ends hidden { token := t, matcher := m, reader := r } before d)
    (hreader : d.reader = r)
    (hquiet : s.looksAhead = true → ∀ a ∈ before, a.kind = .tagLine →
      (m.ask hidden a.kind t).isYes = false)
    (hafter : after = [] ∨ d.move ≠ .ok none) : s.Decides hidden t m r d := by
  cases h with
  | found first a later reading hmoves hmove hask htoken hfirst =>
      have hsplit : s.trials = first ++ a :: (later ++ after) := by
        rw [htrials, hmoves, List.append_assoc, List.cons_append]
      have hmem : a ∈ before := by
        rw [hmoves]
        exact List.mem_append_right _ List.mem_cons_self
      have hnotag : s.looksAhead = true → a.kind ≠ .tagLine := by
        intro hlook hk
        have hno := hquiet hlook a hmem hk
        rw [hask] at hno
        cases hno
      refine .found a reading (mem_trials.mp ?_) hmove hask htoken ?_ ?_ ?_
      · rw [htrials]
        exact List.mem_append_left _ hmem
      · intro kind hlt
        obtain ⟨b, hb, rfl⟩ := exists_mem_of_rank_lt hsplit hlt
        exact hfirst b hb
      · rw [if_neg, hreader]
        rintro ⟨hk, hlook⟩
        exact hnotag hlook hk
      · intro hk hlook
        exact absurd hk (hnotag hlook)
  | none hmove hmatcher hno =>
      rcases hafter with rfl | hafter
      · refine .none hmove hmatcher hreader ?_
        intro a ha
        rw [← mem_trials, htrials, List.append_nil] at ha
        exact hno a ha
      · exact absurd hmove hafter
  | broken a fault ha hmove hask =>
      refine .broken a fault (mem_trials.mp ?_) hmove hask
      rw [htrials]
      exact List.mem_append_left _ ha

/-- The trial of the two moves for tag lines, on a tag line. -/
theorem run_tagLine {g u : Move} {after : List Move} {mid : Trial} {reading : Reading}
    (hg : g.guarded = true) (hgk : g.kind = .tagLine) (hu : u.guarded = false)
    (huk : u.kind = .tagLine)
    (hask : mid.matcher.ask hidden .tagLine mid.token = .yes reading mid.matcher) :
    Trial.run hidden (g :: u :: after) mid =
      { mid with
        token := mid.token.withReading reading
        reader := (mid.reader.lookAhead (mid.matcher.lookForExamples hidden)).2
        move := .ok (some
          (if (mid.reader.lookAhead (mid.matcher.lookForExamples hidden)).1 then g else u)) } := by
  have hagain : mid.matcher.ask hidden .tagLine (mid.token.withReading reading) =
      .yes reading mid.matcher := by
    rw [Matcher.ask_withReading, hask]
  rw [Trial.run_cons, hgk, hask]
  simp only [hg, if_true]
  split
  · rfl
  · rw [Trial.run_cons, huk]
    simp only [hagain, hu]
    rfl

/-- No move was made on a token so far. -/
structure Undecided (t : Token) (m : Matcher) (r : Reader) (d : Trial) : Prop where
  move : d.move = .ok none
  matcher : d.matcher = m
  reader : d.reader = r
  bare : d.token.bare = t.bare

section Tags

variable {before after : List Move} {g u : Move} {mid : Trial}

/-- On a line without tags both moves for tag lines fail, and the moves behind them decide. -/
theorem decides_of_not_tagLine (hmid : Undecided t m r mid)
    (htrials : s.trials = before ++ g :: u :: after) (hgk : g.kind = .tagLine)
    (huk : u.kind = .tagLine) (hafter : ∀ b ∈ after, b.guarded = false)
    (hno : ∀ b ∈ before, (m.ask hidden b.kind t).isYes = false)
    (htag : m.ask hidden .tagLine t = .no) :
    s.Decides hidden t m r (Trial.run hidden (g :: u :: after) mid) := by
  have hask : mid.matcher.ask hidden .tagLine mid.token = .no := by
    rw [hmid.matcher, Matcher.ask_congr (Token.line_eq_of_bare_eq hmid.bare), htag]
  have hskip : Trial.run hidden (g :: u :: after) mid = Trial.run hidden after mid := by
    rw [Trial.run_cons, hgk, hask]
    simp only []
    rw [Trial.run_cons, huk, hask]
  have hno' : ∀ b ∈ before ++ [g, u], (m.ask hidden b.kind t).isYes = false := by
    intro b hb
    rcases List.mem_append.mp hb with hb | hb
    · exact hno b hb
    · have hk : b.kind = .tagLine := by
        rcases List.mem_cons.mp hb with rfl | hb
        · exact hgk
        · rw [List.mem_singleton.mp hb, huk]
      rw [hk, htag]
      rfl
  have hrest : Trial.Ends hidden { token := t, matcher := m, reader := r } after
      (Trial.run hidden after mid) :=
    (Trial.run_ends hafter hmid.move).congr hmid.bare hmid.matcher
  rw [hskip]
  refine decides_of_ends (by rw [htrials, List.append_nil, List.append_assoc]; rfl)
    (hrest.prepend hno') ?_ ?_ (.inl rfl)
  · rw [Trial.run_reader hafter, hmid.reader]
  · intro _ a _ hk
    rw [hk, htag]
    rfl

/-- On a tag line one of the two moves is made, and which one is what was seen ahead. -/
theorem decides_of_tagLine {reading : Reading} (hmid : Undecided t m r mid)
    (htrials : s.trials = before ++ g :: u :: after) (hg : g.guarded = true)
    (hgk : g.kind = .tagLine) (hu : u.guarded = false) (huk : u.kind = .tagLine)
    (hno : ∀ b ∈ before, (m.ask hidden b.kind t).isYes = false)
    (htag : m.ask hidden .tagLine t = .yes reading m) :
    s.Decides hidden t m r (Trial.run hidden (g :: u :: after) mid) := by
  have hlook : s.looksAhead = true :=
    looksAhead_eq_true (by rw [htrials]; exact List.mem_append_right _ List.mem_cons_self) hg
  have hask : mid.matcher.ask hidden .tagLine mid.token = .yes reading mid.matcher := by
    rw [hmid.matcher, Matcher.ask_congr (Token.line_eq_of_bare_eq hmid.bare), htag]
  have hchoice : ∀ b : Bool, (if b then g else u).kind = .tagLine := by
    intro b
    cases b
    · exact huk
    · exact hgk
  rw [run_tagLine hg hgk hu huk hask]
  refine .found _ reading ?_ rfl ?_ (Token.withReading_eq_of_bare_eq hmid.bare _) ?_ ?_ ?_
  · rw [← mem_trials, htrials]
    refine List.mem_append_right _ ?_
    split
    · exact List.mem_cons_self
    · exact List.mem_cons_of_mem _ List.mem_cons_self
  · rw [hchoice, hmid.matcher]
    exact htag
  · intro kind hlt
    rw [hchoice, ← hgk] at hlt
    obtain ⟨b, hb, rfl⟩ := exists_mem_of_rank_lt htrials hlt
    exact hno b hb
  · rw [hmid.matcher, hmid.reader]
    exact (if_pos ⟨hchoice _, hlook⟩).symm
  · intro _ _
    rw [hmid.matcher, hmid.reader]
    cases (r.lookAhead (m.lookForExamples hidden)).1
    · exact hu
    · exact hg

end Tags

theorem decide_decides (s : State) (hidden : List TokenKind) (t : Token) (m : Matcher)
    (r : Reader) : s.Decides hidden t m r (s.decide hidden t m r) := by
  unfold State.decide
  cases s.guards with
  | never h =>
      refine decides_of_ends (List.append_nil _).symm (Trial.run_ends h rfl) (Trial.run_reader h)
        ?_ (.inl rfl)
      intro hlook
      rw [looksAhead_eq_false h] at hlook
      cases hlook
  | once before g u after htrials hg hgk hu huk hbefore hafter =>
      have hplain : ∀ b ∈ before, b.guarded = false := fun b hb => (hbefore b hb).1
      have hends : Trial.Ends hidden { token := t, matcher := m, reader := r } before
          (Trial.run hidden before { token := t, matcher := m, reader := r }) :=
        Trial.run_ends hplain rfl
      have hreader : (Trial.run hidden before { token := t, matcher := m, reader := r }).reader =
          r := Trial.run_reader hplain
      have hbare : (Trial.run hidden before { token := t, matcher := m, reader := r }).token.bare =
          t.bare := Trial.run_bare
      rw [htrials, Trial.run_append _ _ rfl]
      generalize Trial.run hidden before { token := t, matcher := m, reader := r } = mid at *
      have hsettled : mid.move ≠ .ok none → s.Decides hidden t m r mid := by
        intro hmove
        exact decides_of_ends htrials hends hreader
          (fun _ a ha hk => absurd hk (hbefore a ha).2) (.inr hmove)
      cases hends with
      | found _ a _ _ _ hmove _ _ _ =>
          simp only [hmove]
          exact hsettled (by rw [hmove]; simp)
      | broken a fault _ hmove _ =>
          simp only [hmove]
          exact hsettled (by rw [hmove]; simp)
      | none hmove hmatcher hno =>
          simp only [hmove]
          have hmid : Undecided t m r mid := ⟨hmove, hmatcher, hreader, hbare⟩
          rcases Matcher.ask_tagLine m hidden t with htag | ⟨reading, htag⟩
          · exact decides_of_not_tagLine hmid htrials hgk huk (fun b hb => (hafter b hb).1) hno htag
          · exact decides_of_tagLine hmid htrials hg hgk hu huk hno htag

end State

end FeatureFile
