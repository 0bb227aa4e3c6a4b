import FeatureFile.Proofs.Keywords

/-!
# Which keyword a step is read with

A step line is read with the first keyword, in the order of the dialect, that it begins with. As one
keyword may be the beginning of another it matters which of the two stands in front: if it is the
shorter one, the longer one is never found. Such a keyword is `overlooked`: even a line that consists
of it is read with another keyword.

In most languages no keyword is overlooked, and the keyword that is found is the longest one. Old
English, Creole and Slovak have ten that are. For all languages and lines, the keyword that is found
is the longest one exactly if the line does not begin with one of these
(`Matcher.step_keyword_longest`).
-/

namespace FeatureFile

namespace Dialect

/-- The keyword that a text is taken to begin with. -/
def keywordOf (ks : List Text) (t : Text) : Option Text := ks.find? fun k => k.isPrefixOf t

/-- The keywords that are taken for another one. -/
def overlookedIn (ks : List Text) : List Text := ks.filter fun k => keywordOf ks k != some k

/-- The step keywords that are taken for another one. -/
def overlooked (d : Dialect) : List Text := overlookedIn d.steps

/-- The languages in which step keywords are overlooked. -/
def careless : List (Text × List Text) :=
  [("en-old".toList, words ["Tha the ", "Þa þe ", "Ða ðe "]),
   ("ht".toList, words ["Sipoze ke ", "Sipoze Ke ", "Lè sa a ", "Le sa a "]),
   ("sk".toList, words ["A tiež ", "A taktiež ", "A zároveň "])]

/-! ## The first keyword and the longest one -/

section Keywords

variable {ks : List Text} {k t : Text}

theorem mem_overlookedIn {w : Text} :
    w ∈ overlookedIn ks ↔ w ∈ ks ∧ keywordOf ks w ≠ some w := by
  rw [overlookedIn, List.mem_filter, bne_iff_ne]

theorem keywordOf_eq_some (h : keywordOf ks t = some k) : k ∈ ks ∧ k <+: t := by
  have hfront : k.isPrefixOf t = true := List.find?_some (p := fun k : Text => k.isPrefixOf t) h
  exact ⟨List.mem_of_find?_eq_some h, List.isPrefixOf_iff_prefix.mp hfront⟩

theorem exists_keywordOf (hk : k ∈ ks) (hfront : k <+: t) : ∃ k', keywordOf ks t = some k' := by
  rw [← Option.isSome_iff_exists, keywordOf, List.find?_isSome]
  exact ⟨k, hk, List.isPrefixOf_iff_prefix.mpr hfront⟩

/-- The keyword that is found stays the same if the text is cut off behind it. -/
theorem keywordOf_cut (h : keywordOf ks t = some k) {u : Text} (hk : k <+: u) (hu : u <+: t) :
    keywordOf ks u = some k := by
  rw [keywordOf, List.find?_eq_some_iff_append] at h ⊢
  obtain ⟨_, before, after, hks, hbefore⟩ := h
  refine ⟨List.isPrefixOf_iff_prefix.mpr hk, before, after, hks, fun k' hk' => ?_⟩
  have hnot := hbefore k' hk'
  rw [Bool.not_eq_true', Bool.eq_false_iff, ne_eq, List.isPrefixOf_iff_prefix] at hnot ⊢
  exact fun hfront => hnot (hfront.trans hu)

variable (hlast : ∀ w ∈ overlookedIn ks, ∀ k ∈ ks, w <+: k → k = w)
include hlast

/-- The keyword that is found is the longest one, unless there is one that is overlooked. -/
theorem longest_iff (h : keywordOf ks t = some k) :
    (∀ k' ∈ ks, k' <+: t → k'.length ≤ k.length) ↔ ∀ w ∈ overlookedIn ks, ¬ w <+: t := by
  obtain ⟨hk, hfront⟩ := keywordOf_eq_some h
  constructor
  · intro hlongest w hw hwt
    obtain ⟨hmem, hother⟩ := mem_overlookedIn.mp hw
    have hwk : w <+: k := List.prefix_of_prefix_length_le hwt hfront (hlongest w hmem hwt)
    obtain rfl := hlast w hw k hk hwk
    exact hother (keywordOf_cut h List.prefix_rfl hfront)
  · intro hnone k' hk' hfront'
    by_contra hlonger
    have hkk' : k <+: k' := List.prefix_of_prefix_length_le hfront hfront' (by omega)
    have hfound : keywordOf ks k' = some k := keywordOf_cut h hkk' hfront'
    have hown : keywordOf ks k' = some k' := by
      by_contra hother
      exact hnone k' (mem_overlookedIn.mpr ⟨hk', hother⟩) hfront'
    obtain rfl := Option.some.inj (hfound.symm.trans hown)
    omega

/-- A keyword is found where it is the longest one, unless it is overlooked. -/
theorem keywordOf_append_iff (hk : k ∈ ks)
    (hlongest : ∀ k' ∈ ks, k' <+: k ++ t → k'.length ≤ k.length) :
    keywordOf ks (k ++ t) = some k ↔ k ∉ overlookedIn ks := by
  have hfront : k <+: k ++ t := List.prefix_append k t
  refine ⟨fun h hover => ?_, fun hnot => ?_⟩
  · exact (mem_overlookedIn.mp hover).2 (keywordOf_cut h List.prefix_rfl hfront)
  · obtain ⟨k', h⟩ := exists_keywordOf hk hfront
    obtain ⟨hk', hfront'⟩ := keywordOf_eq_some h
    have hnone : ∀ w ∈ overlookedIn ks, ¬ w <+: k ++ t := by
      intro w hw hwt
      have hwk : w <+: k :=
        List.prefix_of_prefix_length_le hwt hfront (hlongest w (mem_overlookedIn.mp hw).1 hwt)
      exact hnot (hlast w hw k hk hwk ▸ hw)
    have hle := (longest_iff hlast h).mpr hnone k hk hfront
    have hkk' : k <+: k' := List.prefix_of_prefix_length_le hfront hfront' hle
    rw [h, hkk'.eq_of_length (le_antisymm hle (hlongest k' hk' hfront'))]

end Keywords

/-! ## The table of dialects -/

/-- No keyword begins with a blank, none that is overlooked is the beginning of another one, and it
is known which are overlooked. -/
def isOrderly (name : Text) (ks : List Text) : Bool :=
  (ks.all fun k => k.head?.any fun c => !isBlank c) &&
    ((overlookedIn ks).all fun w => ks.all fun k => !w.isPrefixOf k || k == w) &&
    overlookedIn ks == (careless.lookup name).getD []

theorem isOrderly_words {name : Text} {gs ws ts as bs : List String}
    {gs' ws' ts' as' bs' : List Text} (hg : words gs = gs') (hw : words ws = ws')
    (ht : words ts = ts') (ha : words as = as') (hb : words bs = bs')
    (h : isOrderly name (gs' ++ ws' ++ ts' ++ as' ++ bs') = true) :
    isOrderly name (words gs ++ words ws ++ words ts ++ words as ++ words bs) = true := by
  rw [hg, hw, ht, ha, hb]
  exact h

theorem isOrderly_of_mem : ∀ d ∈ table, isOrderly d.name d.steps = true := by
  unfold table
  repeat
    refine List.forall_mem_cons.mpr ⟨?_, ?_⟩
    · apply isOrderly_words
      iterate 5
        · repeat apply words_cons rfl
          rfl
      · decide +kernel
  exact List.forall_mem_nil _

section Table

variable {d : Dialect} (hd : d ∈ table)
include hd

theorem overlooked_last : ∀ w ∈ d.overlooked, ∀ k ∈ d.steps, w <+: k → k = w := by
  intro w hw k hk hfront
  have horderly := isOrderly_of_mem d hd
  simp only [isOrderly, Bool.and_eq_true, List.all_eq_true, Bool.or_eq_true, Bool.not_eq_true',
    beq_iff_eq] at horderly
  rcases horderly.1.2 w hw k hk with hnot | heq
  · rw [List.isPrefixOf_iff_prefix.mpr hfront] at hnot
    cases hnot
  · exact heq

theorem overlooked_eq : d.overlooked = (careless.lookup d.name).getD [] := by
  have horderly := isOrderly_of_mem d hd
  rw [isOrderly, Bool.and_eq_true, beq_iff_eq] at horderly
  exact horderly.2

theorem trimLeft_step {k : Text} (hk : k ∈ d.steps) (t : Text) : Text.trimLeft (k ++ t) = k ++ t := by
  have horderly := isOrderly_of_mem d hd
  simp only [isOrderly, Bool.and_eq_true, List.all_eq_true] at horderly
  have hhead := horderly.1.1 k hk
  cases k with
  | nil => cases hhead
  | cons c cs => exact Text.trimLeft_of_head (by simpa using hhead) (cs ++ t)

end Table

end Dialect

/-! ## Step lines -/

namespace Matcher

variable {m : Matcher}

theorem readLine_step_plain (hstyle : m.style = .plain) (l : Line) :
    m.readLine .stepLine l = m.verdictOf ((Dialect.keywordOf m.dialect.steps l.trimmed).map
      fun keyword => { kind := .stepLine, text := some (l.rest keyword.length),
                       keyword := some keyword, indent := l.indent, dialect := m.dialect.name }) := by
  have hmark : m.stepMark l = [] := by rw [stepMark, hstyle]
  rw [readLine, readStep, hmark]
  rfl

theorem readLine_step_yes (hstyle : m.style = .plain) {l : Line} {reading : Reading}
    {next : Matcher} (h : m.readLine .stepLine l = .yes reading next) :
    ∃ k, Dialect.keywordOf m.dialect.steps l.trimmed = some k ∧ reading.keyword = some k ∧
      reading.text = some (Text.trim (l.trimmed.drop k.length)) := by
  rw [readLine_step_plain hstyle] at h
  cases hk : Dialect.keywordOf m.dialect.steps l.trimmed with
  | none =>
      rw [hk] at h
      cases h
  | some k =>
      rw [hk] at h
      cases h
      exact ⟨k, rfl, rfl, rfl⟩

theorem exists_readLine_step (hstyle : m.style = .plain) {l : Line} {k : Text}
    (h : Dialect.keywordOf m.dialect.steps l.trimmed = some k) :
    ∃ reading, m.readLine .stepLine l = .yes reading m ∧ reading.keyword = some k ∧
      reading.text = some (Text.trim (l.trimmed.drop k.length)) := by
  rw [readLine_step_plain hstyle, h]
  exact ⟨_, rfl, rfl, rfl⟩

/-- In every language a line is a step exactly if it begins with a step keyword. The keyword that it is
read with is the longest one exactly if the line does not begin with one that is overlooked; and where
a keyword is the longest one, it is found exactly if it is not overlooked. Ten keywords of three
languages are. -/
theorem step_keyword_longest (hdialect : m.dialect ∈ Dialect.table) (hstyle : m.style = .plain)
    (l : Line) :
    ((∃ reading next, m.readLine .stepLine l = .yes reading next) ↔
      ∃ k ∈ m.dialect.steps, k <+: l.trimmed) ∧
    (∀ reading next, m.readLine .stepLine l = .yes reading next →
      ∃ k ∈ m.dialect.steps, k <+: l.trimmed ∧ reading.keyword = some k ∧
        reading.text = some (Text.trim (l.trimmed.drop k.length)) ∧
        ((∀ k' ∈ m.dialect.steps, k' <+: l.trimmed → k'.length ≤ k.length) ↔
          ∀ w ∈ m.dialect.overlooked, ¬ w <+: l.trimmed)) ∧
    (∀ k ∈ m.dialect.steps, ∀ t,
      (∀ k' ∈ m.dialect.steps, k' <+: k ++ t → k'.length ≤ k.length) →
        ((∃ reading next, m.readLine .stepLine (k ++ t) = .yes reading next ∧
          reading.keyword = some k ∧ reading.text = some (Text.trim t)) ↔
            k ∉ m.dialect.overlooked)) ∧
    m.dialect.overlooked = (Dialect.careless.lookup m.dialect.name).getD [] := by
  have hlast := Dialect.overlooked_last hdialect
  refine ⟨⟨?_, ?_⟩, ?_, ?_, Dialect.overlooked_eq hdialect⟩
  · rintro ⟨reading, next, h⟩
    obtain ⟨k, hk, _, _⟩ := readLine_step_yes hstyle h
    exact ⟨k, Dialect.keywordOf_eq_some hk⟩
  · rintro ⟨k, hk, hfront⟩
    obtain ⟨k', hk'⟩ := Dialect.exists_keywordOf hk hfront
    obtain ⟨reading, hread, _⟩ := exists_readLine_step hstyle hk'
    exact ⟨reading, m, hread⟩
  · intro reading next h
    obtain ⟨k, hk, hkeyword, htext⟩ := readLine_step_yes hstyle h
    obtain ⟨hmem, hfront⟩ := Dialect.keywordOf_eq_some hk
    exact ⟨k, hmem, hfront, hkeyword, htext, Dialect.longest_iff hlast hk⟩
  · intro k hk t hlongest
    have htrimmed : Line.trimmed (k ++ t) = k ++ t := Dialect.trimLeft_step hdialect hk t
    refine Iff.trans ⟨?_, ?_⟩ (Dialect.keywordOf_append_iff hlast hk hlongest)
    · rintro ⟨reading, next, hread, hkeyword, _⟩
      obtain ⟨k', hk', hkeyword', _⟩ := readLine_step_yes hstyle hread
      rw [htrimmed, ← hkeyword', hkeyword] at hk'
      exact hk'
    · intro hfound
      rw [← htrimmed] at hfound
      obtain ⟨reading, hread, hkeyword, htext⟩ := exists_readLine_step hstyle hfound
      rw [htrimmed, List.drop_left] at htext
      exact ⟨reading, m, hread, hkeyword, htext⟩

/-- A step that begins with two keywords of French, of which the longer one stands in front. -/
def frenchStep : Line := "  Étant donné qu'il pleut \n".toList

theorem step_keyword_longest_frenchStep :
    ∃ m, ofName .plain "fr".toList = some m ∧ ∃ reading,
      m.readLine .stepLine frenchStep = .yes reading m ∧
      reading.keyword = some "Étant donné qu'".toList ∧ reading.text = some "il pleut".toList ∧
      ∀ k ∈ m.dialect.steps, k <+: frenchStep.trimmed → k.length ≤ "Étant donné qu'".toList.length := by
  have hcheck : (ofName .plain "fr".toList).any (fun m => m.style = .plain ∧
      (Dialect.careless.lookup m.dialect.name).getD [] = [] ∧
      m.readLine .stepLine frenchStep = .yes
        { kind := .stepLine, text := some "il pleut".toList, keyword := some "Étant donné qu'".toList,
          indent := 2, dialect := "fr".toList } m) = true := by
    decide +kernel
  obtain ⟨m, hm, hread⟩ := (Option.any_eq_true _ _).mp hcheck
  obtain ⟨hstyle, hnone, hread⟩ := of_decide_eq_true hread
  have hdialect : m.dialect ∈ Dialect.table := by
    obtain ⟨d, hd, rfl⟩ := Option.map_eq_some_iff.mp hm
    exact List.mem_of_find?_eq_some hd
  obtain ⟨_, hfound, _, hoverlooked⟩ := step_keyword_longest hdialect hstyle frenchStep
  obtain ⟨k, _, _, hkeyword, _, hlongest⟩ := hfound _ _ hread
  rw [hoverlooked, hnone] at hlongest
  cases hkeyword
  exact ⟨m, hm, _, hread, rfl, rfl, hlongest.mpr (List.forall_mem_nil _)⟩

/-- Creole has the shorter keyword in front: the longer one is not found. -/
theorem overlooked_sipoze_ke :
    ∃ m, ofName .plain "ht".toList = some m ∧ "Sipoze ke ".toList ∈ m.dialect.steps ∧
      ∃ reading, m.readLine .stepLine "Sipoze ke x".toList = .yes reading m ∧
        reading.keyword = some "Sipoze ".toList ∧ reading.text = some "ke x".toList := by
  have hcheck : (ofName .plain "ht".toList).any (fun m =>
      "Sipoze ke ".toList ∈ m.dialect.steps ∧
      m.readLine .stepLine "Sipoze ke x".toList = .yes
        { kind := .stepLine, text := some "ke x".toList, keyword := some "Sipoze ".toList,
          indent := 0, dialect := "ht".toList } m) = true := by
    decide +kernel
  obtain ⟨m, hm, hread⟩ := (Option.any_eq_true _ _).mp hcheck
  obtain ⟨hmem, hread⟩ := of_decide_eq_true hread
  exact ⟨m, hm, hmem, _, hread, rfl, rfl⟩

end Matcher

end FeatureFile
