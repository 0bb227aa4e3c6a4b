import FeatureFile.Proofs.Decision
import Mathlib.Computability.Language

/-!
# The grammar as a language

A source is a document if the kinds of its tokens form a word of one regular language, and this
module gives that language part by part, as one would write it down: a head is blank lines, then
lines of a description, then comments; a step is its line with an argument, and so on
(`Grammar.document`).

The parser knows nothing of all this. It has a table of states and moves. The link between the two
is `State.words`: for every state the words that may still come, put together from the same parts.
`State.mem_words` says that these languages solve the equations which the table stands for: a word
of a state begins with the kind of one of its moves and goes on with a word of the state that the
move leads to.
-/

namespace FeatureFile

open Computability

namespace Grammar

/-- One token. -/
def only (kind : TokenKind) : Language TokenKind := {[kind]}

/-- Comments and blank lines, which may stand almost anywhere. -/
def ignored : Language TokenKind := (only .comment + only .empty)∗

/-- Lines of a description that has begun, and comments behind it. -/
def description : Language TokenKind := (only .other)∗ * (1 + only .comment * ignored)

/-- What stands between a title and the contents of its block. -/
def head : Language TokenKind := (only .empty)∗ * description

/-- Rows of a table that has begun. -/
def rows : Language TokenKind := (only .tableRow + (only .comment + only .empty))∗

def table : Language TokenKind := only .tableRow * rows

def docString : Language TokenKind :=
  only .docStringSeparator * ((only .other)∗ * (only .docStringSeparator * ignored))

def step : Language TokenKind := only .stepLine * (ignored * (1 + (table + docString)))

def tags : Language TokenKind := (only .tagLine * ignored)∗

def examples : Language TokenKind := tags * (only .examplesLine * (head * (1 + table)))

/-- A scenario or a scenario outline behind its tags. -/
def titledScenario : Language TokenKind :=
  only .scenarioLine * (head * step∗) + only .scenarioOutlineLine * (head * (step∗ * examples∗))

def background : Language TokenKind := only .backgroundLine * (head * step∗)

/-- A feature behind its language header. -/
def taggedFeature : Language TokenKind :=
  tags * (only .featureLine * (head * ((1 + background) * (tags * titledScenario)∗)))

def document : Language TokenKind :=
  ignored * ((1 + (1 + only .language * ignored) * taggedFeature) * only .eof)

/-! ## Unrolling

What a word of one part followed by another can begin with. -/

variable {w : List TokenKind} {l m : Language TokenKind}

theorem mem_only_mul {k : TokenKind} : w ∈ only k * m ↔ ∃ v ∈ m, w = k :: v := by
  rw [Language.mem_mul]
  constructor
  · rintro ⟨u, hu, v, hv, rfl⟩
    obtain rfl : u = [k] := hu
    exact ⟨v, hv, rfl⟩
  · rintro ⟨v, hv, rfl⟩
    exact ⟨[k], rfl, v, hv, rfl⟩

theorem mem_kstar_mul : w ∈ l∗ * m ↔ w ∈ m ∨ w ∈ l * (l∗ * m) := by
  nth_rewrite 1 [← Language.one_add_self_mul_kstar_eq_kstar]
  rw [add_mul, one_mul, mul_assoc, Language.mem_add]

theorem mem_optional_mul : w ∈ (1 + l) * m ↔ w ∈ m ∨ w ∈ l * m := by
  rw [add_mul, one_mul, Language.mem_add]

theorem mem_add_mul {k : Language TokenKind} : w ∈ (k + l) * m ↔ w ∈ k * m ∨ w ∈ l * m := by
  rw [add_mul, Language.mem_add]

theorem mem_ignored_mul : w ∈ ignored * m ↔
    w ∈ m ∨ w ∈ only .comment * (ignored * m) ∨ w ∈ only .empty * (ignored * m) := by
  rw [ignored, mem_kstar_mul, mem_add_mul]

theorem mem_description_mul : w ∈ description * m ↔
    (w ∈ m ∨ w ∈ only .comment * (ignored * m)) ∨ w ∈ only .other * (description * m) := by
  simp only [description, mul_assoc]
  rw [mem_kstar_mul, mem_optional_mul, mul_assoc]

theorem mem_head_mul : w ∈ head * m ↔
    w ∈ description * m ∨ w ∈ only .empty * (head * m) := by
  simp only [head, mul_assoc]
  rw [mem_kstar_mul]

theorem mem_rows_mul : w ∈ rows * m ↔ w ∈ m ∨ w ∈ only .tableRow * (rows * m) ∨
    w ∈ only .comment * (rows * m) ∨ w ∈ only .empty * (rows * m) := by
  rw [rows, mem_kstar_mul, mem_add_mul, mem_add_mul]

theorem mem_argument_mul : w ∈ (1 + (table + docString)) * m ↔
    w ∈ m ∨ w ∈ only .tableRow * (rows * m) ∨ w ∈ only .docStringSeparator *
      ((only .other)∗ * (only .docStringSeparator * (ignored * m))) := by
  rw [mem_optional_mul, mem_add_mul]
  simp only [table, docString, mul_assoc]

theorem mem_steps_mul : w ∈ step∗ * m ↔
    w ∈ m ∨ w ∈ only .stepLine * (ignored * ((1 + (table + docString)) * (step∗ * m))) := by
  rw [mem_kstar_mul]
  simp only [step, mul_assoc]

theorem mem_tags_mul : w ∈ tags * m ↔ w ∈ m ∨ w ∈ only .tagLine * (ignored * (tags * m)) := by
  rw [tags, mem_kstar_mul, mul_assoc]

end Grammar

/-! ## The words of a state -/

open Grammar

namespace Grammar

/-- Scenarios up to the end. -/
def scenarios : Language TokenKind := (tags * titledScenario)∗ * only .eof

/-- Examples blocks, and scenarios up to the end. -/
def examplesScenarios : Language TokenKind := examples∗ * scenarios

end Grammar

/-- What may stand behind the head of a block. -/
def Block.rest : Block → Language TokenKind
  | .feature => (1 + Grammar.background) * scenarios
  | .background | .scenario => step∗ * scenarios
  | .outline => step∗ * examplesScenarios
  | .examples => (1 + table) * examplesScenarios

/-- What is left of a head. -/
def Phase.rest : Phase → Language TokenKind
  | .titled => head
  | .described => description
  | .commented => ignored

/-- The words that may come in a state. -/
def State.words : State → Language TokenKind
  | .start => document
  | .language | .featureTags =>
    ignored * (tags * (only .featureLine * (head * Block.feature.rest)))
  | .block b p => p.rest * b.rest
  | .scenarioTags => ignored * (tags * (titledScenario * scenarios))
  | .examplesTags => ignored * (tags * (only .examplesLine * (head * Block.examples.rest)))
  | .examplesTable => rows * examplesScenarios
  | .step o => ignored * ((1 + (table + Grammar.docString)) * o.block.rest)
  | .dataTable o => rows * o.block.rest
  | .docString o => (only .other)∗ * (only .docStringSeparator * (ignored * o.block.rest))
  | .docStringEnd o => ignored * o.block.rest
  | .finished => 1

variable {w : List TokenKind}

/-- A word that begins with the kind of one of the moves and goes on where the move leads. -/
def Move.Begin (as : List Move) (w : List TokenKind) : Prop :=
  ∃ a ∈ as, w ∈ only a.kind * a.next.words

namespace Move

variable {a : Move} {as bs : List Move}

@[simp] theorem begin_nil : Begin [] w ↔ False := by
  simp only [Begin, List.not_mem_nil, false_and, exists_false]

@[simp] theorem begin_cons : Begin (a :: as) w ↔ w ∈ only a.kind * a.next.words ∨ Begin as w :=
  List.exists_mem_cons_iff ..

@[simp] theorem begin_append : Begin (as ++ bs) w ↔ Begin as w ∨ Begin bs w := by
  simp only [Begin, List.mem_append, or_and_right, exists_or]

@[simp] theorem words_finished : only .eof * State.finished.words = only .eof := mul_one _

@[simp] theorem words_ending {inner : List Rule} {b : Block} :
    only (ending inner b).kind * (ending inner b).next.words = only .eof := words_finished

@[simp] theorem words_stay {t : State} {k : TokenKind} :
    only (stay k t).kind * (stay k t).next.words = only k * t.words := rfl

@[simp] theorem words_enter {t : State} {k : TokenKind} {opens : List Rule} :
    only (enter k opens t).kind * (enter k opens t).next.words = only k * t.words := rfl

end Move

namespace Grammar

theorem mem_titledScenario_mul : w ∈ titledScenario * scenarios ↔
    w ∈ only .scenarioLine * (State.block .scenario .titled).words ∨
      w ∈ only .scenarioOutlineLine * (State.block .outline .titled).words := by
  rw [titledScenario, mem_add_mul]
  simp only [mul_assoc]
  rfl

theorem mem_scenarios (closes : List Rule) : w ∈ scenarios ↔
    w ∈ only .eof ∨ Move.Begin (Move.followers.scenarios closes) w := by
  have hwords : w ∈ scenarios ↔ w ∈ only .eof ∨ w ∈ tags * (titledScenario * scenarios) := by
    rw [scenarios, mem_kstar_mul, mul_assoc]
  rw [hwords, mem_tags_mul, mem_titledScenario_mul]
  simp only [Move.followers.scenarios, Move.begin_cons, Move.begin_nil, or_false]
  exact or_congr_right or_comm

theorem mem_examplesScenarios (part closes : List Rule) : w ∈ examplesScenarios ↔
    w ∈ only .eof ∨ Move.Begin (Move.followers.examples part closes) w := by
  have hwords : w ∈ examplesScenarios ↔
      w ∈ scenarios ∨ w ∈ only .examplesLine * (State.block .examples .titled).words ∨
        w ∈ only .tagLine * State.examplesTags.words := by
    rw [examplesScenarios, mem_kstar_mul, examples, mul_assoc, mem_tags_mul]
    simp only [mul_assoc]
    rfl
  rw [hwords, mem_scenarios closes]
  simp [Move.followers.examples, Move.followers.scenarios, or_assoc, or_left_comm, or_comm]

end Grammar

theorem Block.mem_rest (inner : List Rule) (b : Block) : w ∈ b.rest ↔
    w ∈ only .eof ∨ Move.Begin (Move.body inner b ++ Move.followers inner b) w := by
  rw [Move.begin_append]
  cases b with
  | feature =>
      have hbackground : w ∈ Grammar.background * scenarios ↔
          w ∈ only .backgroundLine * (State.block .background .titled).words := by
        rw [Grammar.background, mul_assoc, mul_assoc]
        rfl
      rw [rest, mem_optional_mul, mem_scenarios (inner ++ Move.ended .feature), hbackground]
      simp [Move.body, Move.followers, or_left_comm, or_comm]
  | background =>
      rw [rest, mem_steps_mul, mem_scenarios (inner ++ Move.ended .background), or_assoc,
        or_comm (a := Move.Begin _ w)]
      simp only [Move.body, Move.begin_cons, Move.begin_nil, or_false]
      rfl
  | scenario =>
      rw [rest, mem_steps_mul, mem_scenarios (inner ++ Move.ended .scenario), or_assoc,
        or_comm (a := Move.Begin _ w)]
      simp only [Move.body, Move.begin_cons, Move.begin_nil, or_false]
      rfl
  | outline =>
      rw [rest, mem_steps_mul, mem_examplesScenarios inner (inner ++ Move.ended .outline), or_assoc,
        or_comm (a := Move.Begin _ w)]
      simp only [Move.body, Move.begin_cons, Move.begin_nil, or_false]
      rfl
  | examples =>
      rw [rest, mem_optional_mul, mem_examplesScenarios (inner ++ [.examples, .examplesDefinition])
        (inner ++ Move.ended .examples), table, mul_assoc, or_assoc,
        or_comm (a := Move.Begin _ w)]
      simp only [Move.body, Move.begin_cons, Move.begin_nil, or_false]
      rfl

theorem StepOwner.mem_rest (inner : List Rule) (o : StepOwner) : w ∈ o.block.rest ↔
    w ∈ only .eof ∨ Move.Begin (Move.newStep inner o :: Move.followers inner o.block) w := by
  have hbody : Move.body inner o.block = [Move.newStep inner o] := by cases o <;> rfl
  rw [Block.mem_rest inner, hbody, List.singleton_append]

/-- A word of a state begins with the kind of one of its moves and goes on where the move leads. -/
theorem State.mem_words (s : State) (hs : s ≠ .finished) :
    w ∈ s.words ↔ Move.Begin s.moves w := by
  -- In each state the language is unrolled by one token. What is left then is that the moves stand
  -- in another order.
  cases s with
  | start =>
      have hfeature : taggedFeature * only .eof =
          tags * (only .featureLine * (block .feature .titled).words) := by
        simp only [taggedFeature, mul_assoc]
        rfl
      have hwords : w ∈ start.words ↔
          (w ∈ only .eof ∨
            ((w ∈ only .featureLine * (block .feature .titled).words ∨
              w ∈ only .tagLine * featureTags.words) ∨ w ∈ only .language * language.words)) ∨
          w ∈ only .comment * start.words ∨ w ∈ only .empty * start.words := by
        rw [words, document, mem_ignored_mul, mem_optional_mul, mul_assoc, mem_optional_mul,
          mul_assoc, hfeature, mem_tags_mul]
        rfl
      rw [hwords]
      simp [moves, or_assoc, or_left_comm, or_comm]
  | language =>
      have hwords : w ∈ language.words ↔
          (w ∈ only .featureLine * (block .feature .titled).words ∨
            w ∈ only .tagLine * featureTags.words) ∨
          w ∈ only .comment * language.words ∨ w ∈ only .empty * language.words :=
        mem_ignored_mul.trans (or_congr_left mem_tags_mul)
      rw [hwords]
      simp [moves, or_assoc, or_left_comm, or_comm]
  | featureTags =>
      have hwords : w ∈ featureTags.words ↔
          (w ∈ only .featureLine * (block .feature .titled).words ∨
            w ∈ only .tagLine * featureTags.words) ∨
          w ∈ only .comment * featureTags.words ∨ w ∈ only .empty * featureTags.words :=
        mem_ignored_mul.trans (or_congr_left mem_tags_mul)
      rw [hwords]
      simp [moves, or_assoc, or_left_comm, or_comm]
  | block b p =>
      cases p with
      | titled =>
          have hwords : w ∈ (block b .titled).words ↔
              ((w ∈ b.rest ∨ w ∈ only .comment * (block b .commented).words) ∨
                w ∈ only .other * (block b .described).words) ∨
                w ∈ only .empty * (block b .titled).words :=
            mem_head_mul.trans (or_congr_left mem_description_mul)
          rw [hwords, b.mem_rest []]
          simp [moves, or_assoc, or_left_comm, or_comm]
      | described =>
          have hwords : w ∈ (block b .described).words ↔
              (w ∈ b.rest ∨ w ∈ only .comment * (block b .commented).words) ∨
                w ∈ only .other * (block b .described).words :=
            mem_description_mul
          rw [hwords, b.mem_rest [.description]]
          simp [moves, or_assoc, or_left_comm, or_comm]
      | commented =>
          have hwords : w ∈ (block b .commented).words ↔
              w ∈ b.rest ∨ w ∈ only .comment * (block b .commented).words ∨
                w ∈ only .empty * (block b .commented).words :=
            mem_ignored_mul
          rw [hwords, b.mem_rest []]
          simp [moves, or_assoc, or_left_comm, or_comm]
  | scenarioTags =>
      have hwords : w ∈ scenarioTags.words ↔
          ((w ∈ only .scenarioLine * (block .scenario .titled).words ∨
            w ∈ only .scenarioOutlineLine * (block .outline .titled).words) ∨
              w ∈ only .tagLine * scenarioTags.words) ∨
          w ∈ only .comment * scenarioTags.words ∨ w ∈ only .empty * scenarioTags.words := by
        rw [← mem_titledScenario_mul]
        exact mem_ignored_mul.trans (or_congr_left mem_tags_mul)
      rw [hwords]
      simp [moves, or_assoc, or_left_comm, or_comm]
  | examplesTags =>
      have hwords : w ∈ examplesTags.words ↔
          (w ∈ only .examplesLine * (block .examples .titled).words ∨
              w ∈ only .tagLine * examplesTags.words) ∨
          w ∈ only .comment * examplesTags.words ∨ w ∈ only .empty * examplesTags.words :=
        mem_ignored_mul.trans (or_congr_left mem_tags_mul)
      rw [hwords]
      simp [moves, or_assoc, or_left_comm, or_comm]
  | examplesTable =>
      have hwords : w ∈ examplesTable.words ↔
          w ∈ examplesScenarios ∨ w ∈ only .tableRow * examplesTable.words ∨
            w ∈ only .comment * examplesTable.words ∨ w ∈ only .empty * examplesTable.words :=
        mem_rows_mul
      rw [hwords, mem_examplesScenarios [.examplesTable, .examples, .examplesDefinition]
        ([.examplesTable] ++ Move.ended .examples)]
      simp [moves, Move.followers, or_assoc, or_left_comm, or_comm]
  | step o =>
      have hwords : w ∈ (step o).words ↔
          (w ∈ o.block.rest ∨ w ∈ only .tableRow * (dataTable o).words ∨
            w ∈ only .docStringSeparator * (docString o).words) ∨
            w ∈ only .comment * (step o).words ∨ w ∈ only .empty * (step o).words :=
        mem_ignored_mul.trans (or_congr_left mem_argument_mul)
      rw [hwords, o.mem_rest [.step]]
      simp [moves, or_assoc, or_left_comm, or_comm]
  | dataTable o =>
      have hwords : w ∈ (dataTable o).words ↔
          w ∈ o.block.rest ∨ w ∈ only .tableRow * (dataTable o).words ∨
            w ∈ only .comment * (dataTable o).words ∨ w ∈ only .empty * (dataTable o).words :=
        mem_rows_mul
      rw [hwords, o.mem_rest [.dataTable, .step]]
      simp [moves, or_assoc, or_left_comm, or_comm]
  | docString o =>
      have hwords : w ∈ (docString o).words ↔
          w ∈ only .docStringSeparator * (docStringEnd o).words ∨
            w ∈ only .other * (docString o).words :=
        mem_kstar_mul
      rw [hwords]
      simp [moves]
  | docStringEnd o =>
      have hwords : w ∈ (docStringEnd o).words ↔
          w ∈ o.block.rest ∨ w ∈ only .comment * (docStringEnd o).words ∨
            w ∈ only .empty * (docStringEnd o).words :=
        mem_ignored_mul
      rw [hwords, o.mem_rest [.docString, .step]]
      simp [moves, or_assoc, or_left_comm, or_comm]
  | finished => exact absurd rfl hs

/-! ## Reading a word -/

namespace State

/-- Do moves of these kinds lead from the state to the last one? -/
def reads : List TokenKind → State → Bool
  | [], s => s = .finished
  | k :: w, s => s.moves.any fun a => a.kind = k && reads w a.next

theorem reads_cons {k : TokenKind} {s : State} :
    s.reads (k :: w) = true ↔ ∃ a ∈ s.moves, a.kind = k ∧ a.next.reads w = true := by
  simp only [reads, List.any_eq_true, Bool.and_eq_true, decide_eq_true_eq]

/-- The words of a state are those that its moves can read. -/
theorem mem_words_iff_reads (s : State) (w : List TokenKind) :
    w ∈ s.words ↔ s.reads w = true := by
  induction w generalizing s with
  | nil =>
      rw [reads, decide_eq_true_eq]
      constructor
      · intro hw
        by_contra hs
        obtain ⟨a, _, ha⟩ := (s.mem_words hs).mp hw
        obtain ⟨v, _, hv⟩ := mem_only_mul.mp ha
        cases hv
      · rintro rfl
        exact Language.nil_mem_one
  | cons k w ih =>
      by_cases hs : s = .finished
      · subst hs
        refine iff_of_false ?_ Bool.false_ne_true
        intro hw
        cases Language.mem_one _ |>.mp hw
      · rw [s.mem_words hs, reads_cons]
        refine exists_congr fun a => and_congr_right fun _ => ?_
        rw [mem_only_mul]
        constructor
        · rintro ⟨v, hv, heq⟩
          cases heq
          exact ⟨rfl, (ih _).mp hv⟩
        · rintro ⟨rfl, hw⟩
          exact ⟨w, (ih _).mpr hw, rfl⟩

end State

/-- Whether a sequence of kinds is a document can be decided by the table of moves. -/
instance : DecidablePred (· ∈ Grammar.document) := fun w =>
  decidable_of_iff _ (State.start.mem_words_iff_reads w).symm

end FeatureFile
