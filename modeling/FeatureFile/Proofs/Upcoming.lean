import FeatureFile.Proofs.Verdict

/-!
# What a reader hands out

A reader may have looked at tokens before it hands them out, so where it stands in a source is
spread over three fields. `Reader.upcoming` puts them together: the tokens that it will hand out,
one after the other, up to the end of the input. Taking a token takes the head of that list.

Looking ahead puts what was looked at at the END of the queue. On an empty queue that is where it
came from, and `upcoming` stays the same; on any other queue lines would change places. Whether the
queue is empty when a state looks ahead is a question about states, and no concern of this module.

A weaker fact holds for any queue: the lines that have not been handed out, `Reader.pending`, stay
the same up to their order. So every token that is handed out is the end of the input or leaves one
line less, and a run comes to an end.
-/

namespace FeatureFile

/-- Apart from how they are read, tokens are their numbers and their lines. -/
theorem Token.map_bare (ts : List Token) : ts.map bare =
    ((ts.map number).zip (ts.map line)).map fun p => { number := p.1, line := p.2 } := by
  rw [List.zip_map', List.map_map]
  rfl

namespace Reader

/-- The tokens that are made from lines, and the end of the input behind them. -/
def fresh (count : Nat) : List Line → List Token
  | [] => [{ number := count + 1, line := none }]
  | l :: ls => { number := count + 1, line := some l } :: fresh (count + 1) ls

/-- The tokens of a queue up to the end of the input, and what is made from lines behind them. -/
def upcomingFrom (count : Nat) (unread : List Line) : List Token → List Token
  | [] => fresh count unread
  | t :: ts => t.bare :: if t.isEnd then [] else upcomingFrom count unread ts

/-- The tokens that will be handed out up to the end of the input, as they were made. -/
def upcoming (r : Reader) : List Token := upcomingFrom r.count r.unread r.queue

/-- Is something found when tokens are looked at in turn? -/
def sees (look : Token → Glance × Token) : List Token → Bool
  | [] => false
  | t :: ts =>
    !t.isEnd &&
      match (look t).1 with
      | .found => true
      | .blocked => false
      | .passed => sees look ts

/-- The lines that have not been handed out. -/
def pending (r : Reader) : List Line := r.queue.filterMap Token.line ++ r.unread

/-- The number of tokens made from the source when its end has been read. -/
def total (r : Reader) : Nat :=
  if r.queue.any Token.isEnd then r.count else r.count + r.unread.length + 1

theorem fresh_number (count : Nat) (ls : List Line) :
    (fresh count ls).map Token.number =
      (List.range' (count + 1) (ls.length + 1)).map Int.ofNat := by
  induction ls generalizing count with
  | nil => rfl
  | cons l ls ih =>
      rw [fresh, List.map_cons, ih, List.length_cons, List.range'_succ, List.map_cons]
      rfl

theorem fresh_line (count : Nat) (ls : List Line) :
    (fresh count ls).map Token.line = ls.map some ++ [none] := by
  induction ls generalizing count with
  | nil => rfl
  | cons l ls ih => rw [fresh, List.map_cons, ih, List.map_cons, List.cons_append]

theorem fresh_bare (count : Nat) (ls : List Line) :
    (fresh count ls).map Token.bare = fresh count ls := by
  induction ls generalizing count with
  | nil => rfl
  | cons l ls ih =>
      rw [fresh, List.map_cons, ih]
      rfl

/-- The tokens of some lines. -/
theorem mem_fresh {count : Nat} {ls : List Line} {t : Token} (h : t ∈ fresh count ls) :
    (∃ (n : Nat) (l : Line), ls[n]? = some l ∧ t.line = some l ∧ t.number = count + n + 1) ∨
      (t.line = none ∧ t.number = count + ls.length + 1) := by
  induction ls generalizing count with
  | nil =>
      rw [fresh, List.mem_singleton] at h
      rw [h]
      exact .inr ⟨rfl, by simp⟩
  | cons l ls ih =>
      rw [fresh] at h
      rcases List.mem_cons.mp h with rfl | h
      · exact .inl ⟨0, l, rfl, rfl, by simp⟩
      · rcases ih h with ⟨n, k, hk, hline, hnumber⟩ | ⟨hline, hnumber⟩
        · refine .inl ⟨n + 1, k, hk, hline, ?_⟩
          rw [hnumber]
          omega
        · refine .inr ⟨hline, ?_⟩
          rw [hnumber, List.length_cons]
          omega

/-! ## Taking a token -/

theorem upcoming_eq (r : Reader) :
    r.upcoming = r.next.1.bare :: if r.next.1.isEnd then [] else r.next.2.upcoming := by
  obtain ⟨queue, unread, count⟩ := r
  cases queue with
  | cons t ts => rfl
  | nil =>
      cases unread with
      | nil => rfl
      | cons l ls => rfl

theorem pending_next (r : Reader) (h : r.next.1.isEnd = false) :
    ∃ l, r.next.1.line = some l ∧ r.pending = l :: r.next.2.pending := by
  obtain ⟨queue, unread, count⟩ := r
  cases queue with
  | cons t ts =>
      change t.line.isNone = false at h
      obtain ⟨l, hl⟩ := Option.isSome_iff_exists.mp (Option.isNone_eq_false_iff.mp h)
      refine ⟨l, hl, ?_⟩
      simp only [pending, next, List.filterMap_cons, hl, List.cons_append]
  | nil =>
      cases unread with
      | nil => cases h
      | cons l ls => exact ⟨l, rfl, rfl⟩

theorem total_next (r : Reader) (h : r.next.1.isEnd = false) : r.next.2.total = r.total := by
  obtain ⟨queue, unread, count⟩ := r
  cases queue with
  | cons t ts =>
      change t.isEnd = false at h
      cases hts : ts.any Token.isEnd <;> simp [next, total, h, hts]
  | nil =>
      cases unread with
      | nil => cases h
      | cons l ls =>
          simp only [next, scan, total, List.any_nil, List.length_cons, Bool.false_eq_true,
            if_false]
          omega

theorem count_next (r : Reader) (h : r.next.1.isEnd = true) : r.next.2.count = r.total := by
  obtain ⟨queue, unread, count⟩ := r
  cases queue with
  | cons t ts =>
      change t.isEnd = true at h
      simp only [next, total, List.any_cons, h, Bool.true_or, if_true]
  | nil =>
      cases unread with
      | nil => rfl
      | cons l ls => cases h

/-! ## Looking ahead

All that is asked of a look at a token is that it leaves the token what it was and that it
depends on the line alone. -/

section LookAhead

variable {look : Token → Glance × Token} (hbare : ∀ t, (look t).2.bare = t.bare)
  (hline : ∀ t u : Token, t.line = u.line → (look t).1 = (look u).1)

include hbare in
theorem upcoming_lookUnread (count : Nat) (ls : List Line) :
    upcomingFrom (lookUnread look count ls).reader.count (lookUnread look count ls).reader.unread
      (lookUnread look count ls).seen = fresh count ls := by
  induction ls generalizing count with
  | nil =>
      have hend : (look { number := count + 1, line := none }).2.isEnd = true :=
        Token.isEnd_eq_of_bare_eq (hbare _)
      rw [lookUnread, upcomingFrom, if_pos hend, hbare]
      rfl
  | cons l ls ih =>
      have hend : (look { number := count + 1, line := some l }).2.isEnd = false :=
        Token.isEnd_eq_of_bare_eq (hbare _)
      have hkeep := hbare { number := count + 1, line := some l }
      rw [lookUnread, fresh]
      split <;> rename_i t hlook <;> rw [hlook] at hend hkeep <;> change t.isEnd = false at hend <;>
        change t.bare = _ at hkeep <;> simp only [upcomingFrom, hend, hkeep]
      · rfl
      · rfl
      · simp only [Bool.false_eq_true, if_false, ih]
        rfl

include hbare in
theorem lookUnread_total (count : Nat) (ls : List Line) :
    (if (lookUnread look count ls).seen.any Token.isEnd then (lookUnread look count ls).reader.count
      else (lookUnread look count ls).reader.count +
        (lookUnread look count ls).reader.unread.length + 1) = count + ls.length + 1 := by
  induction ls generalizing count with
  | nil =>
      have hend : (look { number := count + 1, line := none }).2.isEnd = true :=
        Token.isEnd_eq_of_bare_eq (hbare _)
      simp [lookUnread, hend]
  | cons l ls ih =>
      have hend : (look { number := count + 1, line := some l }).2.isEnd = false :=
        Token.isEnd_eq_of_bare_eq (hbare _)
      have hrest := ih (count + 1)
      rw [lookUnread]
      split <;> rename_i t hlook <;> rw [hlook] at hend <;> change t.isEnd = false at hend
      · simp [hend]
        omega
      · simp [hend]
        omega
      · simp only [List.any_cons, hend, Bool.false_or]
        rw [hrest, List.length_cons]
        omega

theorem lookUnread_queue (count : Nat) (ls : List Line) :
    (lookUnread look count ls).reader.queue = [] := by
  induction ls generalizing count with
  | nil => rfl
  | cons l ls ih =>
      rw [lookUnread]
      split
      · rfl
      · rfl
      · exact ih (count + 1)

/-- The tokens that have been looked at are new ones, as the look has left them. -/
theorem mem_lookUnread_seen {count : Nat} {ls : List Line} {t : Token}
    (h : t ∈ (lookUnread look count ls).seen) : ∃ u, u.reading = none ∧ t = (look u).2 := by
  induction ls generalizing count with
  | nil => exact ⟨_, rfl, List.mem_singleton.mp h⟩
  | cons l ls ih =>
      rw [lookUnread] at h
      split at h <;> next u hlook =>
        rcases List.mem_cons.mp h with rfl | h
        · exact ⟨_, rfl, by rw [hlook]⟩
        · first
            | exact absurd h List.not_mem_nil
            | exact ih h

theorem mem_lookAhead_queue {r : Reader} (hq : r.queue = []) {t : Token}
    (h : t ∈ (r.lookAhead look).2.queue) : ∃ u, u.reading = none ∧ t = (look u).2 := by
  rw [lookAhead, hq, lookQueued] at h
  simp only [lookUnread_queue, List.nil_append] at h
  exact mem_lookUnread_seen h

theorem lookUnread_found (count : Nat) (ls : List Line) :
    (lookUnread look count ls).found = sees look (fresh count ls) := by
  induction ls generalizing count with
  | nil => rfl
  | cons l ls ih =>
      have hline : ({ number := count + 1, line := some l } : Token).isEnd = false := rfl
      rw [lookUnread, fresh, sees, hline, ← ih]
      rcases look { number := count + 1, line := some l } with ⟨glance, t⟩
      cases glance <;> rfl

/-- On an empty queue looking ahead is looking at what comes next. -/
theorem lookAhead_fst {r : Reader} (hq : r.queue = []) :
    (r.lookAhead look).1 = sees look r.upcoming := by
  rw [lookAhead, upcoming, hq, lookQueued]
  exact lookUnread_found r.count r.unread

include hbare in
/-- Looking ahead on an empty queue changes nothing about what comes next. -/
theorem upcoming_lookAhead {r : Reader} (hq : r.queue = []) :
    (r.lookAhead look).2.upcoming = r.upcoming := by
  rw [lookAhead, hq, lookQueued]
  simp only [upcoming, lookUnread_queue, List.nil_append, hq]
  exact upcoming_lookUnread hbare r.count r.unread

include hbare in
theorem total_lookAhead {r : Reader} (hq : r.queue = []) :
    (r.lookAhead look).2.total = r.total := by
  rw [lookAhead, hq, lookQueued]
  simp only [total, lookUnread_queue, List.nil_append, hq, List.any_nil]
  exact lookUnread_total hbare r.count r.unread

include hbare hline in
/-- What was looked at: tokens that one looks past, and one token at the end that is what one looks
for or blocks the view. -/
theorem lookUnread_seen (count : Nat) (ls : List Line) :
    ∃ passed last, (lookUnread look count ls).seen = passed ++ [last] ∧
      (∀ t ∈ passed, (look t).1 = .passed) ∧
      (lookUnread look count ls).found = (!last.isEnd && (look last).1 == .found) ∧
      (last.isEnd = true ∨ (look last).1 ≠ .passed) := by
  induction ls generalizing count with
  | nil =>
      have hend : (look { number := count + 1, line := none }).2.isEnd = true :=
        Token.isEnd_eq_of_bare_eq (hbare _)
      exact ⟨[], _, rfl, fun t ht => (nomatch ht), by rw [hend]; rfl, .inl hend⟩
  | cons l ls ih =>
      have hend : (look { number := count + 1, line := some l }).2.isEnd = false :=
        Token.isEnd_eq_of_bare_eq (hbare _)
      have hsame : (look (look { number := count + 1, line := some l }).2).1 =
          (look { number := count + 1, line := some l }).1 :=
        hline _ _ (Token.line_eq_of_bare_eq (hbare _))
      rw [lookUnread]
      split <;> rename_i t hlook <;> rw [hlook] at hend hsame <;> change t.isEnd = false at hend <;>
        change (look t).1 = _ at hsame
      · exact ⟨[], t, rfl, fun t ht => (nomatch ht), by rw [hend, hsame]; rfl,
          .inr (by rw [hsame]; exact Glance.noConfusion)⟩
      · exact ⟨[], t, rfl, fun t ht => (nomatch ht), by rw [hend, hsame]; rfl,
          .inr (by rw [hsame]; exact Glance.noConfusion)⟩
      · obtain ⟨passed, last, hseen, hpassed, hfound, hlast⟩ := ih (count + 1)
        refine ⟨t :: passed, last, congrArg (List.cons t) hseen, ?_, hfound, hlast⟩
        intro u hu
        rcases List.mem_cons.mp hu with rfl | hu
        · exact hsame
        · exact hpassed u hu

include hbare hline in
theorem lookAhead_queue {r : Reader} (hq : r.queue = []) :
    ∃ passed last, (r.lookAhead look).2.queue = passed ++ [last] ∧
      (∀ t ∈ passed, (look t).1 = .passed) ∧
      (r.lookAhead look).1 = (!last.isEnd && (look last).1 == .found) ∧
      (last.isEnd = true ∨ (look last).1 ≠ .passed) := by
  rw [lookAhead, hq, lookQueued]
  simp only [lookUnread_queue, List.nil_append]
  exact lookUnread_seen hbare hline r.count r.unread

/-! Without a condition on the queue: nothing is lost, whatever the order. -/

include hbare in
theorem pending_lookUnread (count : Nat) (ls : List Line) :
    (lookUnread look count ls).seen.filterMap Token.line ++
      (lookUnread look count ls).reader.unread = ls := by
  induction ls generalizing count with
  | nil =>
      have hend : (look { number := count + 1, line := none }).2.line = none :=
        Token.line_eq_of_bare_eq (hbare _)
      simp [lookUnread, hend]
  | cons l ls ih =>
      have hsame : (look { number := count + 1, line := some l }).2.line = some l :=
        Token.line_eq_of_bare_eq (hbare _)
      have hrest := ih (count + 1)
      rw [lookUnread]
      split <;> rename_i t hlook <;> rw [hlook] at hsame <;> change t.line = some l at hsame <;>
        simp only [List.filterMap_cons, List.filterMap_nil, hsame, List.cons_append,
          List.nil_append, hrest]

include hbare in
theorem pending_lookQueued (unread : List Line) (count : Nat) (queue : List Token) :
    ((lookQueued look unread count queue).reader.queue.filterMap Token.line ++
      (lookQueued look unread count queue).seen.filterMap Token.line ++
      (lookQueued look unread count queue).reader.unread).Perm
      (queue.filterMap Token.line ++ unread) := by
  induction queue with
  | nil =>
      rw [lookQueued, lookUnread_queue, List.filterMap_nil, List.nil_append,
        pending_lookUnread hbare]
      exact List.Perm.refl _
  | cons q qs ih =>
      have hsame : (look q).2.line = q.line := Token.line_eq_of_bare_eq (hbare _)
      have hfront : ∀ (l : Line) (front back : List Line),
          (front ++ l :: back).Perm (l :: (front ++ back)) := fun _ _ _ => List.perm_middle
      rw [lookQueued]
      split <;> rename_i t hlook <;> rw [hlook] at hsame <;> change t.line = q.line at hsame <;>
        cases hq : q.line <;> rw [hq] at hsame <;>
        simp only [List.filterMap_cons, List.filterMap_nil, hq, hsame, List.append_nil,
          List.append_assoc, List.cons_append, List.nil_append, List.Perm.refl, hfront]
      · rw [List.append_assoc] at ih
        exact ih
      · rw [List.append_assoc] at ih
        exact (hfront _ _ _).trans (ih.cons _)

include hbare in
theorem pending_lookAhead (r : Reader) : (r.lookAhead look).2.pending.Perm r.pending := by
  have hsame := pending_lookQueued hbare r.unread r.count r.queue
  rw [lookAhead]
  simp only [pending, List.filterMap_append]
  exact hsame

end LookAhead

end Reader

namespace Matcher

variable {m : Matcher} {hidden : List TokenKind}

theorem firstReading_bare {t u : Token} {kinds : List TokenKind}
    (h : m.firstReading hidden t kinds = some u) : u.bare = t.bare := by
  induction kinds with
  | nil => cases h
  | cons kind kinds ih =>
      rw [firstReading] at h
      split at h
      · cases h
        rfl
      · exact ih h

theorem lookForExamples_bare (t : Token) : (m.lookForExamples hidden t).2.bare = t.bare := by
  unfold lookForExamples
  split
  · exact firstReading_bare ‹_›
  · split
    · exact firstReading_bare ‹_›
    · rfl

theorem firstReading_isSome (t : Token) (kinds : List TokenKind) :
    (m.firstReading hidden t kinds).isSome =
      kinds.any fun kind => (m.ask hidden kind t).isYes := by
  induction kinds with
  | nil => rfl
  | cons kind kinds ih =>
      rw [firstReading, List.any_cons, ← ih]
      cases m.ask hidden kind t <;> rfl

theorem lookForExamples_fst (t : Token) :
    (m.lookForExamples hidden t).1 =
      if (m.ask hidden .examplesLine t).isYes then .found
      else if [.empty, .comment, .tagLine].any fun kind => (m.ask hidden kind t).isYes then .passed
      else .blocked := by
  have hexamples : (m.firstReading hidden t [.examplesLine]).isSome =
      (m.ask hidden .examplesLine t).isYes := by
    rw [firstReading_isSome, List.any_cons, List.any_nil, Bool.or_false]
  rw [← firstReading_isSome, ← hexamples]
  unfold lookForExamples
  cases m.firstReading hidden t [.examplesLine] with
  | some _ => rfl
  | none =>
      cases m.firstReading hidden t [.empty, .comment, .tagLine] with
      | some _ => rfl
      | none => rfl

theorem lookForExamples_congr (t u : Token) (h : t.line = u.line) :
    (m.lookForExamples hidden t).1 = (m.lookForExamples hidden u).1 := by
  have hask : ∀ kind, m.ask hidden kind t = m.ask hidden kind u := fun kind => ask_congr h
  rw [lookForExamples_fst, lookForExamples_fst]
  simp only [hask]

end Matcher

end FeatureFile
