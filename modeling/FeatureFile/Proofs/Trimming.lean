import FeatureFile.Line
import FeatureFile.Text.Lines
import Mathlib.Data.List.DropRight
import Mathlib.Data.List.Infix

/-!
# Trimming and splitting texts

Facts about the functions on texts that the matcher looks at lines with. Dropping a final stretch is
`List.rdropWhile`, of which much is known; trimming drops blanks on both sides, and a text that has
been trimmed begins and ends with a character that is not blank.
-/

namespace FeatureFile

namespace Text

variable {p : Char → Bool} {t : Text} {c : Char}

theorem dropEnd_eq_rdropWhile (p : Char → Bool) (t : Text) : dropEnd p t = t.rdropWhile p := by
  induction t with
  | nil => rfl
  | cons c cs ih =>
      rw [dropEnd, ih, List.rdropWhile, List.rdropWhile, List.reverse_cons, List.dropWhile_append]
      cases h : cs.reverse.dropWhile p with
      | nil => cases hc : p c <;> simp [hc]
      | cons d ds => cases hds : ds.reverse <;> simp [hds]

theorem dropEnd_isPrefix (p : Char → Bool) (t : Text) : dropEnd p t <+: t := by
  rw [dropEnd_eq_rdropWhile]
  exact List.rdropWhile_prefix p t

theorem dropEnd_dropEnd (p : Char → Bool) (t : Text) : dropEnd p (dropEnd p t) = dropEnd p t := by
  rw [dropEnd_eq_rdropWhile, dropEnd_eq_rdropWhile, List.rdropWhile_idempotent]

theorem exists_dropEnd (p : Char → Bool) (t : Text) :
    ∃ e, t = dropEnd p t ++ e ∧ ∀ c ∈ e, p c = true := by
  refine ⟨t.rtakeWhile p, ?_, fun c hc => List.mem_rtakeWhile_imp hc⟩
  rw [dropEnd_eq_rdropWhile, List.rdropWhile_append_rtakeWhile]

theorem dropEnd_append {e : Text} (t : Text) (h : ∀ c ∈ e, p c = true) :
    dropEnd p (t ++ e) = dropEnd p t := by
  have hgone : e.reverse.dropWhile p = [] :=
    List.dropWhile_eq_nil_iff.mpr fun c hc => h c (List.mem_reverse.mp hc)
  rw [dropEnd_eq_rdropWhile, dropEnd_eq_rdropWhile, List.rdropWhile, List.reverse_append,
    List.dropWhile_append, hgone]
  rfl

/-! ## Blanks -/

theorem isBlank_of_isLineEnd (h : isLineEnd c = true) : isBlank c = true := by
  rcases (Bool.or_eq_true _ _).mp h with h | h <;> rw [beq_iff_eq.mp h] <;> rfl

theorem trimLeft_append (t e : Text) :
    trimLeft (t ++ e) = if trimLeft t = [] then trimLeft e else trimLeft t ++ e := by
  rw [trimLeft, List.dropWhile_append]
  by_cases h : trimLeft t = [] <;> simp only [trimLeft] at h ⊢ <;> simp [h]

theorem trimLeft_blanks {e : Text} (h : ∀ c ∈ e, isBlank c = true) : trimLeft e = [] :=
  List.dropWhile_eq_nil_iff.mpr h

/-- Blanks around a text do not matter to what it is when trimmed. -/
theorem trim_append {b e : Text} (t : Text) (hb : ∀ c ∈ b, isBlank c = true)
    (he : ∀ c ∈ e, isBlank c = true) : trim (b ++ (t ++ e)) = trim t := by
  rw [trim, trimLeft_append, if_pos (trimLeft_blanks hb), trimLeft_append]
  split
  · next h => rw [trimLeft_blanks he, trim, h]
  · exact dropEnd_append _ he

theorem trim_append_blanks {e : Text} (t : Text) (he : ∀ c ∈ e, isBlank c = true) :
    trim (t ++ e) = trim t :=
  trim_append (b := []) t (List.forall_mem_nil _) he

theorem trimLeft_of_head {c : Char} (hc : isBlank c = false) (cs : Text) :
    trimLeft (c :: cs) = c :: cs := by
  rw [trimLeft, List.dropWhile_cons, hc]
  rfl

theorem trimLeft_eq_self {t : Text} {c : Char} (h : t.head? = some c) (hc : isBlank c = false) :
    trimLeft t = t := by
  cases t with
  | nil => cases h
  | cons d t =>
      cases h
      exact trimLeft_of_head hc _

theorem head_of_trimLeft {c : Char} {cs : Text} (h : trimLeft t = c :: cs) : isBlank c = false := by
  have hne : t.dropWhile isBlank ≠ [] := by
    rw [show t.dropWhile isBlank = c :: cs from h]
    exact List.cons_ne_nil _ _
  have hhead := List.head_dropWhile_not isBlank hne
  simpa only [show t.dropWhile isBlank = c :: cs from h, List.head_cons] using hhead

theorem trimLeft_trimRight_trimLeft (t : Text) :
    trimLeft (trimRight (trimLeft t)) = trimRight (trimLeft t) := by
  cases h : trimRight (trimLeft t) with
  | nil => rfl
  | cons c cs =>
      have hfront : c :: cs <+: trimLeft t := h ▸ dropEnd_isPrefix _ _
      obtain ⟨rest, hrest⟩ := hfront
      exact trimLeft_of_head (head_of_trimLeft hrest.symm) cs

theorem trim_trimLeft (t : Text) : trim (trimLeft t) = trim t :=
  congrArg trimRight (List.dropWhile_idempotent _ _)

theorem trim_trim (t : Text) : trim (trim t) = trim t := by
  rw [trim, trim, trimLeft_trimRight_trimLeft]
  exact dropEnd_dropEnd _ _

/-- Trimming leaves a text alone that does not begin or end with a blank. -/
theorem trim_eq_self (hfirst : ∀ c ∈ t.head?, isBlank c = false)
    (hlast : ∀ c ∈ t.getLast?, isBlank c = false) : trim t = t := by
  have hleft : trimLeft t = t := by
    cases t with
    | nil => rfl
    | cons c cs => exact trimLeft_of_head (hfirst c rfl) cs
  rw [trim, hleft, trimRight, dropEnd_eq_rdropWhile, List.rdropWhile_eq_self_iff]
  intro hne
  rw [hlast _ (List.getLast?_eq_getLast_of_ne_nil hne)]
  exact Bool.false_ne_true

theorem getLast?_of_trim (h : trim t = t) : ∀ c ∈ t.getLast?, isBlank c = false := by
  intro c hc
  have hright : t.rdropWhile isBlank = t := by
    rw [← dropEnd_eq_rdropWhile, ← h]
    exact dropEnd_dropEnd _ _
  obtain ⟨hne, rfl⟩ := List.mem_getLast?_eq_getLast hc
  exact Bool.eq_false_iff.mpr (List.rdropWhile_eq_self_iff.mp hright hne)

theorem mem_trim (h : c ∈ t) (hc : isBlank c = false) : c ∈ trim t := by
  have hleft : c ∈ trimLeft t := by
    rw [← List.takeWhile_append_dropWhile (p := isBlank) (l := t)] at h
    rcases List.mem_append.mp h with h | h
    · have hblank := List.mem_takeWhile_imp h
      rw [hc] at hblank
      cases hblank
    · exact h
  rw [trim, trimRight, dropEnd_eq_rdropWhile]
  rw [← List.rdropWhile_append_rtakeWhile (p := isBlank) (l := trimLeft t)] at hleft
  rcases List.mem_append.mp hleft with h | h
  · exact h
  · have hblank := List.mem_rtakeWhile_imp h
    rw [hc] at hblank
    cases hblank

theorem trim_suffix_mem (h : c ∈ trim t) : c ∈ t :=
  (List.dropWhile_suffix _).subset ((dropEnd_isPrefix _ _).subset h)

/-! ## Lines -/

/-- A line feed can only be the last character. -/
def OneLine (t : Text) : Prop := ∃ b, '\n' ∉ b ∧ (t = b ∨ t = b ++ ['\n'])

theorem oneLine_of_mem_lines {l : Text} (h : l ∈ lines t) : OneLine l := by
  induction t generalizing l with
  | nil => cases h
  | cons c cs ih =>
      rw [lines] at h
      split at h
      · rcases List.mem_cons.mp h with rfl | h
        · exact ⟨[], List.not_mem_nil, .inr rfl⟩
        · exact ih h
      · next hc =>
          split at h
          · exact ⟨[c], by simpa using Ne.symm hc, .inl (List.mem_singleton.mp h)⟩
          · next l' ls hlines =>
              rcases List.mem_cons.mp h with rfl | h
              · obtain ⟨b, hb, hl⟩ := ih (hlines ▸ List.mem_cons_self)
                refine ⟨c :: b, ?_, hl.imp (congrArg _) (congrArg _)⟩
                rw [List.mem_cons, not_or]
                exact ⟨Ne.symm hc, hb⟩
              · exact ih (hlines ▸ List.mem_cons_of_mem _ h)

theorem OneLine.of_suffix {s : Text} (h : OneLine t) (hs : s <:+ t) : OneLine s := by
  obtain ⟨b, hb, rfl | rfl⟩ := h
  · exact ⟨s, fun hmem => hb (hs.subset hmem), .inl rfl⟩
  · rcases List.suffix_concat_iff.mp hs with rfl | ⟨b', rfl, hb'⟩
    · exact ⟨[], List.not_mem_nil, .inl rfl⟩
    · exact ⟨b', fun hmem => hb (hb'.subset hmem), .inr rfl⟩

/-- What is cut off at the end of a line takes the line feed along. -/
theorem OneLine.newline_not_mem_dropEnd (h : OneLine t) (hp : p '\n' = true) :
    '\n' ∉ dropEnd p t := by
  obtain ⟨b, hb, hcases⟩ := h
  have hsame : dropEnd p t = dropEnd p b := by
    rcases hcases with rfl | rfl
    · rfl
    · refine dropEnd_append b fun c hc => ?_
      rw [List.mem_singleton.mp hc]
      exact hp
  rw [hsame]
  exact fun hmem => hb ((dropEnd_isPrefix _ _).subset hmem)

theorem OneLine.newline_not_mem_trim (h : OneLine t) : '\n' ∉ trim t :=
  (h.of_suffix (List.dropWhile_suffix _)).newline_not_mem_dropEnd rfl

/-! ## Pieces -/

theorem exists_splitOn (sep : Char) (t : Text) : ∃ p ps, splitOn sep t = p :: ps := by
  cases t with
  | nil => exact ⟨_, _, rfl⟩
  | cons c cs =>
      rw [splitOn]
      split
      · exact ⟨_, _, rfl⟩
      · split <;> exact ⟨_, _, rfl⟩

theorem splitOn_cons {sep c : Char} {cs p : Text} {ps : List Text} (h : splitOn sep cs = p :: ps) :
    splitOn sep (c :: cs) = if c = sep then [] :: p :: ps else (c :: p) :: ps := by
  rw [splitOn, h]

theorem splitOn_tail_ne_nil {sep : Char} (h : sep ∈ t) : (splitOn sep t).tail ≠ [] := by
  induction t with
  | nil => cases h
  | cons c cs ih =>
      obtain ⟨p, ps, hsplit⟩ := exists_splitOn sep cs
      rw [splitOn_cons hsplit]
      split
      · exact List.cons_ne_nil _ _
      · next hc =>
          have hrest := ih ((List.mem_cons.mp h).resolve_left (Ne.symm hc))
          rwa [hsplit] at hrest

theorem mem_splitOn {sep : Char} {q : Text} (h : q ∈ splitOn sep t) :
    sep ∉ q ∧ ∀ c ∈ q, c ∈ t := by
  induction t generalizing q with
  | nil =>
      obtain rfl : q = [] := List.mem_singleton.mp h
      exact ⟨List.not_mem_nil, fun c hc => by cases hc⟩
  | cons d cs ih =>
      obtain ⟨p, ps, hsplit⟩ := exists_splitOn sep cs
      have hrest : ∀ q ∈ p :: ps, sep ∉ q ∧ ∀ c ∈ q, c ∈ d :: cs := fun q hq =>
        have hq := ih (hsplit ▸ hq)
        ⟨hq.1, fun c hc => List.mem_cons_of_mem _ (hq.2 c hc)⟩
      rw [splitOn_cons hsplit] at h
      split at h
      · rcases List.mem_cons.mp h with rfl | h
        · exact ⟨List.not_mem_nil, fun c hc => by cases hc⟩
        · exact hrest q h
      · next hd =>
          rcases List.mem_cons.mp h with rfl | h
          · obtain ⟨hsep, hsub⟩ := hrest p List.mem_cons_self
            refine ⟨?_, ?_⟩
            · rw [List.mem_cons, not_or]
              exact ⟨Ne.symm hd, hsep⟩
            · intro c hc
              rcases List.mem_cons.mp hc with rfl | hc
              · exact List.mem_cons_self
              · exact hsub c hc
          · exact hrest q (List.mem_cons_of_mem _ h)

theorem splitOn_of_not_mem {sep : Char} (h : sep ∉ t) : splitOn sep t = [t] := by
  induction t with
  | nil => rfl
  | cons c cs ih =>
      rw [List.mem_cons, not_or] at h
      rw [splitOn_cons (ih h.2), if_neg (Ne.symm h.1)]

theorem splitOn_append {sep : Char} (h : sep ∉ t) (u : Text) :
    splitOn sep (t ++ sep :: u) = t :: splitOn sep u := by
  induction t with
  | nil =>
      obtain ⟨p, ps, hsplit⟩ := exists_splitOn sep u
      rw [List.nil_append, splitOn_cons hsplit, if_pos rfl, hsplit]
  | cons c cs ih =>
      rw [List.mem_cons, not_or] at h
      rw [List.cons_append, splitOn_cons (ih h.2), if_neg (Ne.symm h.1)]

/-- Where a mark stands at the front, apart from blanks, it is cut out there. -/
theorem removeFirst_of_front {c : Char} {mark : Text} (hc : isBlank c = false)
    (h : c :: mark <+: trimLeft t) : removeFirst (c :: mark) t =
      t.takeWhile isBlank ++ (trimLeft t).drop (c :: mark).length := by
  induction t with
  | nil => cases List.prefix_nil.mp h
  | cons d ds ih =>
      rw [removeFirst]
      cases hd : isBlank d with
      | true =>
          have hleft : trimLeft (d :: ds) = trimLeft ds := by
            rw [trimLeft, List.dropWhile_cons, if_pos hd]
            rfl
          have hne : ¬ (c :: mark).isPrefixOf (d :: ds) = true := by
            rw [List.isPrefixOf_iff_prefix, List.cons_prefix_cons]
            rintro ⟨rfl, _⟩
            rw [hc] at hd
            cases hd
          rw [hleft] at h
          rw [if_neg hne, ih h, hleft, List.takeWhile_cons, if_pos hd]
          rfl
      | false =>
          have hleft : trimLeft (d :: ds) = d :: ds := trimLeft_of_head hd ds
          rw [hleft] at h ⊢
          rw [if_pos (List.isPrefixOf_iff_prefix.mpr h), List.takeWhile_cons, hd]
          rfl

theorem trimLeft_removeFirst {c : Char} {mark : Text} (hc : isBlank c = false)
    (h : c :: mark <+: trimLeft t) :
    trimLeft (removeFirst (c :: mark) t) = trimLeft ((trimLeft t).drop (c :: mark).length) := by
  rw [removeFirst_of_front hc h, trimLeft_append,
    if_pos (trimLeft_blanks fun d hd => List.mem_takeWhile_imp hd)]

/-- A text without line ends does not reach into the end of a line. -/
theorem isPrefixOf_append {start e : Text} (hstart : start.any isLineEnd = false)
    (he : ∀ c ∈ e, isLineEnd c = true) : start.isPrefixOf (t ++ e) = start.isPrefixOf t := by
  rw [Bool.eq_iff_iff, List.isPrefixOf_iff_prefix, List.isPrefixOf_iff_prefix]
  refine ⟨fun h => ?_, fun h => h.trans (List.prefix_append _ _)⟩
  rcases List.prefix_or_prefix_of_prefix h (List.prefix_append _ _) with h' | ⟨v, rfl⟩
  · exact h'
  · rw [List.prefix_append_right_inj] at h
    cases v with
    | nil => rw [List.append_nil]
    | cons d v =>
        have hin := List.any_eq_false.mp hstart d (List.mem_append_right _ List.mem_cons_self)
        exact absurd (he d (h.subset List.mem_cons_self)) hin

end Text

namespace Line

variable {l : Line} {e start : Text} {c : Char}

/-- The end of a line does not matter to how the line starts. -/
theorem startsWith_append (hstart : start.any Text.isLineEnd = false)
    (he : ∀ c ∈ e, Text.isLineEnd c = true) :
    startsWith (l ++ e) start = startsWith l start := by
  rw [startsWith, startsWith, trimmed, trimmed, Text.trimLeft_append]
  split
  · next h => rw [h, Text.trimLeft_blanks fun c hc => Text.isBlank_of_isLineEnd (he c hc)]
  · exact Text.isPrefixOf_append hstart he

theorem isBlank_append (he : ∀ c ∈ e, Text.isLineEnd c = true) :
    isBlank (l ++ e) = isBlank l := by
  rw [isBlank, isBlank, trimmed, trimmed, Text.trimLeft_append]
  split
  · next h => rw [h, Text.trimLeft_blanks fun c hc => Text.isBlank_of_isLineEnd (he c hc)]
  · next h =>
      rw [Bool.eq_iff_iff, List.isEmpty_iff, List.isEmpty_iff]
      simp [h]

theorem isBlank_chomp (l : Line) : isBlank (Text.chomp l) = isBlank l := by
  obtain ⟨e, hsplit, hends⟩ := Text.exists_dropEnd Text.isLineEnd l
  conv_rhs => rw [hsplit]
  exact (isBlank_append hends).symm

theorem exists_trimmed (hl : l.trimmed.head? = some c) : ∃ cs, l.trimmed = c :: cs := by
  cases h : l.trimmed with
  | nil =>
      rw [h] at hl
      cases hl
  | cons d cs =>
      rw [h] at hl
      cases hl
      exact ⟨cs, rfl⟩

theorem head_of_startsWith (h : l.startsWith [c] = true) : l.trimmed.head? = some c := by
  obtain ⟨cs, hcs⟩ := List.isPrefixOf_iff_prefix.mp h
  rw [← hcs]
  rfl

theorem startsWith_trimmed (l : Line) (start : Text) :
    startsWith l.trimmed start = l.startsWith start := by
  rw [startsWith, startsWith, trimmed, trimmed, Text.trimLeft, Text.trimLeft,
    List.dropWhile_idempotent]

theorem startsWith_of_head_ne (hl : l.trimmed.head? = some c) {d : Char}
    (hstart : start.head? = some d) (hne : d ≠ c) : l.startsWith start = false := by
  obtain ⟨cs, hcs⟩ := exists_trimmed hl
  cases start with
  | nil => cases hstart
  | cons d' ds =>
      cases hstart
      rw [startsWith, hcs, Bool.eq_false_iff, ne_eq, List.isPrefixOf_iff_prefix,
        List.cons_prefix_cons]
      exact fun h => hne h.1

theorem isBlank_eq_false : isBlank l = false ↔ trimmed l ≠ [] := by
  rw [isBlank, List.isEmpty_eq_false_iff]

theorem trimmed_append (h : isBlank l = false) (e : Text) : trimmed (l ++ e) = trimmed l ++ e := by
  rw [trimmed, Text.trimLeft_append, if_neg]
  · rfl
  · exact isBlank_eq_false.mp h

/-- However much is taken off the front of the text of a line, only line ends may be left more. -/
theorem exists_drop_trimmed_append (he : ∀ c ∈ e, Text.isLineEnd c = true) (t : Text) (n : Nat) :
    ∃ e', (∀ c ∈ e', Text.isLineEnd c = true) ∧
      (trimmed (t ++ e)).drop n = (trimmed t).drop n ++ e' := by
  cases ht : isBlank t with
  | true =>
      have hall : isBlank (t ++ e) = true := by rw [isBlank_append he, ht]
      rw [isBlank, List.isEmpty_iff] at ht hall
      exact ⟨[], List.forall_mem_nil _, by rw [ht, hall, List.append_nil]⟩
  | false =>
      refine ⟨e.drop (n - (trimmed t).length), fun c hc => he c (List.mem_of_mem_drop hc), ?_⟩
      rw [trimmed_append ht, List.drop_append]

/-- A line that starts with an at sign has tags. -/
theorem tags_ne_nil (h : l.startsWith "@".toList = true) : l.tags ≠ [] := by
  have hmem : '@' ∈ l := by
    have hfront : "@".toList <+: l.trimmed := List.isPrefixOf_iff_prefix.mp h
    exact (List.dropWhile_sublist _).subset (hfront.subset (List.mem_singleton_self '@'))
  have htail := Text.splitOn_tail_ne_nil (Text.mem_trim hmem rfl)
  rw [tags]
  cases hpieces : (Text.splitOn '@' (Text.trim l)).tail with
  | nil => exact absurd hpieces htail
  | cons piece pieces => exact List.cons_ne_nil _ _

end Line

end FeatureFile
