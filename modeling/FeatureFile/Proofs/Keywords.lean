import FeatureFile.Proofs.Titles
import FeatureFile.Proofs.Trimming

/-!
# The keywords of all languages

Facts about every keyword of every supported language. It is not empty, so that a blank line is no
step. It does not start with a hash mark, so that no title or step is taken for a comment, nor with a
quote, so that none is taken for a separator. And it has no line end in it, so that how a line ends
does not matter for what the line is.
-/

namespace FeatureFile

namespace Dialect

/-- All keywords of the dialect. -/
def keywords (d : Dialect) : List Text :=
  d.features ++ d.backgrounds ++ d.scenarios ++ d.outlines ++ d.examples ++ d.steps

/-- The keyword starts with a character that is no hash mark and no quote, and has no line end in it. -/
def isTame (k : Text) : Bool :=
  (k.head?.any fun c => c != '#' && c != '"') && !k.any Text.isLineEnd

theorem tame_words {ws : List String} {ts : List Text} (h : words ws = ts)
    (hts : ts.all isTame = true) : (words ws).all isTame = true := by
  rw [h]
  exact hts

theorem tame_of_mem : ∀ d ∈ table, d.features.all isTame = true ∧
    d.backgrounds.all isTame = true ∧ d.scenarios.all isTame = true ∧
    d.outlines.all isTame = true ∧ d.examples.all isTame = true ∧ d.givens.all isTame = true ∧
    d.whens.all isTame = true ∧ d.thens.all isTame = true ∧ d.ands.all isTame = true ∧
    d.buts.all isTame = true := by
  unfold table
  repeat
    refine List.forall_mem_cons.mpr ⟨⟨?_, ?_, ?_, ?_, ?_, ?_, ?_, ?_, ?_, ?_⟩, ?_⟩
    iterate 10
      · apply tame_words
        · repeat apply words_cons rfl
          rfl
        · decide +kernel
  exact List.forall_mem_nil _

theorem isTame_of_mem {d : Dialect} (hd : d ∈ table) {k : Text} (hk : k ∈ d.keywords) :
    isTame k = true := by
  obtain ⟨hf, hb, hs, ho, he, hg, hw, ht, ha, hbut⟩ := tame_of_mem d hd
  have hall : d.keywords.all isTame = true := by
    simp only [keywords, steps, List.all_append, hf, hb, hs, ho, he, hg, hw, ht, ha, hbut,
      Bool.and_self]
  exact List.all_eq_true.mp hall k hk

section Tame

variable {d : Dialect} (hd : d ∈ table) {k : Text} (hk : k ∈ d.keywords)
include hd hk

theorem exists_head : ∃ c cs, k = c :: cs ∧ c ≠ '#' ∧ c ≠ '"' := by
  have htame := isTame_of_mem hd hk
  cases k with
  | nil => cases htame
  | cons c cs =>
      simp only [isTame, List.head?_cons, Option.any_some, Bool.and_eq_true, bne_iff_ne] at htame
      exact ⟨c, cs, rfl, htame.1⟩

theorem keyword_ne_nil : k ≠ [] := by
  obtain ⟨c, cs, rfl, _⟩ := exists_head hd hk
  exact List.cons_ne_nil c cs

theorem head_ne_hash : k.head? ≠ some '#' := by
  obtain ⟨c, cs, rfl, hhash, _⟩ := exists_head hd hk
  exact fun h => hhash (Option.some.inj h)

theorem no_line_end : k.any Text.isLineEnd = false := by
  have htame := isTame_of_mem hd hk
  simp only [isTame, Bool.and_eq_true, Bool.not_eq_true'] at htame
  exact htame.2

end Tame

end Dialect

namespace Matcher

variable {m : Matcher} {kind : TokenKind} {l : Line}

theorem readSeparator_eq_no (h : ∀ f : Fence, l.startsWith f.text = false) :
    m.readSeparator l = .no := by
  rw [readSeparator]
  cases m.separator with
  | none =>
      have hnone : fenceOf l = none := by
        cases hf : fenceOf l with
        | none => rfl
        | some f => cases (h f).symm.trans (fenceOf_eq_some hf)
      rw [hnone]
  | some d =>
      simp only [h]
      rfl

theorem readSeparator_of_hash (h : l.startsWith "#".toList = true) : m.readSeparator l = .no := by
  refine readSeparator_eq_no fun f => ?_
  cases f with
  | quotes => exact Line.startsWith_of_head_ne (Line.head_of_startsWith h) rfl (by decide)
  | backticks => exact Line.startsWith_of_head_ne (Line.head_of_startsWith h) rfl (by decide)

/-- A line that starts with a hash mark is a comment, a header or a step that is switched off, or
else free text. -/
theorem readLine_of_hash (hm : m.dialect ∈ Dialect.table) (h : l.startsWith "#".toList = true)
    (hkind : kind ∉ [TokenKind.comment, .stepLine, .language, .other]) :
    m.readLine kind l = .no := by
  have hhead := Line.head_of_startsWith h
  have htitle : ∀ ks : List Text, (∀ k ∈ ks, k ∈ m.dialect.keywords) →
      m.verdictOf (m.readTitle kind ks l) = .no := by
    intro ks hks
    rw [readTitle_eq_none (fun k hk => Dialect.head_ne_hash hm (hks k hk)) (.inr h)]
    rfl
  cases kind with
  | eof => rfl
  | empty =>
      have htext : l.isBlank = false := by
        rw [Line.isBlank_eq_false]
        intro hnil
        rw [hnil] at hhead
        cases hhead
      rw [readLine, htext]
      rfl
  | tagLine | tableRow =>
      rw [readLine, Line.startsWith_of_head_ne hhead rfl (by decide)]
      rfl
  | featureLine | backgroundLine | scenarioLine | scenarioOutlineLine | examplesLine =>
      exact htitle _ fun k hk => by
        simp only [Dialect.keywords, List.mem_append, hk, true_or, or_true]
  | docStringSeparator => exact readSeparator_of_hash h
  | comment | stepLine | language | other => simp at hkind

end Matcher

end FeatureFile
