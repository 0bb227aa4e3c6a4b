import FeatureFile.Proofs.Recovery
import FeatureFile.Proofs.Tables

/-!
# A parse beside its builder

A parser tells its builder what it finds and listens to one kind of answer, the refusal. A refusal is
an error like others: it is counted, and the parse goes on. So a parse with a builder that refuses
nothing takes the same course as one with a builder that refuses some calls, as long as neither has
collected too many errors: it makes the same calls and has the same errors, but for those that the
builder is to blame for.

`Run.Shadows` relates two such runs. It is carried through the parts of a run in one direction: as
long as the run with the refusals is not given up, its shadow is not either, since it has no more
errors (`Run.steps_shadowed`). The document builder and the listing are such a pair, and what the
document builder refuses are the ragged tables.
-/

namespace FeatureFile

/-- A builder that refuses nothing. -/
def Builder.Silent (γ : Type) {σ : Type} [Builder γ σ] : Prop :=
  ∀ c (b : γ), (receive c b).2 = none

theorem Listing.silent : Builder.Silent Listing := by
  intro c l
  cases c <;> rfl

namespace Run

variable {β γ ρ σ : Type} {mode : Mode} {run : Run (Recorder β)} {shadow : Run (Recorder γ)}

/-- The same run beside a builder that refuses nothing. -/
structure Shadows (run : Run (Recorder β)) (shadow : Run (Recorder γ)) : Prop where
  reader : shadow.reader = run.reader
  matcher : shadow.matcher = run.matcher
  calls : shadow.builder.log.map Prod.fst = run.builder.log.map Prod.fst
  errors : shadow.errors = run.errors.filter fun e => !e.isMalformed

/-- If the run is not given up, neither is its shadow. -/
def Shadowed (x : Run (Recorder β) × Option Halt) (y : Run (Recorder γ) × Option Halt) : Prop :=
  x.2 = none → y.2 = none ∧ Shadows x.1 y.1

theorem Shadowed.of_eq {x : Run (Recorder β) × Option Halt}
    {y : Run (Recorder γ) × Option Halt} (h : Shadowed x y) (hx : x = (run, none)) :
    ∃ shadow, y = (shadow, none) ∧ Shadows run shadow := by
  subst hx
  obtain ⟨hnone, hshadows⟩ := h rfl
  exact ⟨y.1, Prod.ext rfl hnone, hshadows⟩

theorem Shadowed.andThen {x : Run (Recorder β) × Option Halt}
    {y : Run (Recorder γ) × Option Halt} {f : Run (Recorder β) → Run (Recorder β) × Option Halt}
    {g : Run (Recorder γ) → Run (Recorder γ) × Option Halt} (hx : Shadowed x y)
    (hf : ∀ run shadow, Shadows run shadow → Shadowed (f run) (g shadow)) :
    Shadowed (Run.andThen x f) (Run.andThen y g) := by
  obtain ⟨run, _ | halt⟩ := x
  · obtain ⟨hnone, h⟩ := hx rfl
    obtain ⟨shadow, halt'⟩ := y
    cases hnone
    exact hf run shadow h
  · intro hhalt
    cases hhalt

theorem report_shadowed (h : Shadows run shadow) {raised kept : ParseError}
    (hkept : kept.isMalformed = false) :
    Shadowed (run.report mode raised kept) (shadow.report mode raised kept) := by
  intro hnone
  have hless : shadow.errors.length ≤ run.errors.length := by
    rw [h.errors]
    exact List.length_filter_le _ _
  unfold report at hnone ⊢
  split at hnone
  · cases hnone
  · split at hnone
    · next hstop hlen =>
        rw [if_neg hstop, if_pos hlen, if_neg hstop, if_pos (by omega)]
        refine ⟨rfl, h.reader, h.matcher, h.calls, ?_⟩
        simp only [h.errors, List.filter_append]
        simp [hkept]
    · cases hnone

theorem reportAll_shadowed {es : List (ParseError × ParseError)}
    (hes : ∀ e ∈ es, e.2.isMalformed = false) (h : Shadows run shadow) :
    Shadowed (run.reportAll mode es) (shadow.reportAll mode es) := by
  induction es generalizing run shadow with
  | nil => exact fun _ => ⟨rfl, h⟩
  | cons e es ih =>
      rw [reportAll_cons, reportAll_cons]
      exact (report_shadowed h (hes e List.mem_cons_self)).andThen fun _ _ h' =>
        ih (fun e he => hes e (List.mem_cons_of_mem _ he)) h'

variable [Builder β ρ] [Builder γ σ] (hblames : Builder.Blames β) (hsilent : Builder.Silent γ)
include hblames hsilent

/-- A refusal adds to the errors of the run what its shadow does not have. -/
theorem call_shadowed (c : Call) (h : Shadows run shadow) :
    Shadowed (run.call mode c) (shadow.call mode c) := by
  intro hnone
  have hgrows := call_none (Prod.ext rfl hnone : run.call mode c = ((run.call mode c).1, none))
  have hquiet : (Builder.receive c shadow.builder).2 = none := hsilent c shadow.builder.builder
  rw [call_of_receive hquiet]
  refine ⟨rfl, h.reader.trans hgrows.reader.symm, h.matcher.trans hgrows.matcher.symm, ?_, ?_⟩
  · rw [hgrows.builder]
    change (shadow.builder.log ++ [(c, _)]).map Prod.fst = (run.builder.log ++ [(c, _)]).map Prod.fst
    rw [List.map_append, List.map_append, h.calls]
    rfl
  · have hblamed : ((Builder.receive c run.builder).2.toList.flatMap Refusal.toErrors).filter
        (fun e => !e.isMalformed) = [] := by
      rw [List.filter_eq_nil_iff]
      intro e he
      obtain ⟨r, hr, he⟩ := List.mem_flatMap.mp he
      rw [hblames c run.builder.builder r (Option.mem_toList.mp hr) e he]
      exact Bool.false_ne_true
    rw [hgrows.errors, List.filter_append, hblamed, List.append_nil]
    exact h.errors

theorem callAll_shadowed (cs : List Call) (h : Shadows run shadow) :
    Shadowed (run.callAll mode cs) (shadow.callAll mode cs) := by
  induction cs generalizing run shadow with
  | nil => exact fun _ => ⟨rfl, h⟩
  | cons c cs ih =>
      rw [callAll_cons, callAll_cons]
      exact (call_shadowed hblames hsilent c h).andThen fun _ _ h' => ih h'

theorem settle_shadowed (s : State) (trial : Trial) (h : Shadows run shadow) :
    Shadowed (run.settle mode s trial) (shadow.settle mode s trial) := by
  unfold settle
  split
  · exact fun hnone => nomatch hnone
  · split
    · exact fun hnone => nomatch hnone
    · exact report_shadowed h (ParseError.isMalformed_unexpected _ _)
  · exact callAll_shadowed hblames hsilent _ h

theorem advance_shadowed (s : State) (h : Shadows run shadow) :
    Shadowed (run.advance mode s).ended (shadow.advance mode s).ended := by
  have hdecision : shadow.decision mode s = run.decision mode s := by
    rw [decision, decision, h.reader, h.matcher]
  rw [ended_advance, ended_advance, hdecision]
  refine Shadowed.andThen (reportAll_shadowed ?_ ⟨rfl, rfl, h.calls, h.errors⟩) ?_
  · intro e he
    obtain ⟨header, _, rfl⟩ := List.mem_map.mp he
    rfl
  · exact fun _ _ h' => settle_shadowed hblames hsilent s _ h'

theorem steps_shadowed (fuel : Nat) (s : State) (h : Shadows run shadow) :
    Shadowed (run.steps mode fuel s) (shadow.steps mode fuel s) := by
  induction fuel generalizing s run shadow with
  | zero => exact fun _ => ⟨rfl, h⟩
  | succ fuel ih =>
      have hdecision : shadow.decision mode s = run.decision mode s := by
        rw [decision, decision, h.reader, h.matcher]
      rw [steps_succ, steps_succ, hdecision, h.reader]
      refine (advance_shadowed hblames hsilent s h).andThen fun _ _ h' => ?_
      split
      · exact fun _ => ⟨rfl, h'⟩
      · exact ih _ h'

end Run

namespace Parser

variable {matcher : Matcher} {source : Text} {es : List ParseError}

theorem errors?_of_ok {β ρ : Type} [Builder β ρ] {parser : Parser β} {r : ρ}
    (h : (parser.parse matcher source).outcome = .ok r) :
    parser.errors? matcher source = some [] := by
  rw [errors?, h]

theorem errors?_of_errors {β ρ : Type} [Builder β ρ] {parser : Parser β}
    (h : (parser.parse matcher source).outcome = .error (.errors es)) :
    parser.errors? matcher source = some es := by
  rw [errors?, h]

/-- What the errors of a listing say about its outcome. -/
theorem listing_outcome {listing : Parser Listing}
    (h : listing.errors? matcher source = some es) :
    (es = [] ∧ ∃ text, (listing.parse matcher source).outcome = .ok text) ∨
      (es ≠ [] ∧ (listing.parse matcher source).outcome = .error (.errors es)) := by
  have horderly : Orderly listing.stopAtFirst source _ (listing.parse matcher source).outcome :=
    parse_orderly Listing.sturdy
  unfold errors? at h
  split at h
  · next text hok =>
      cases h
      exact .inl ⟨rfl, text, hok⟩
  · next es' herrors =>
      cases h
      rw [herrors] at horderly
      refine .inr ⟨?_, herrors⟩
      rintro rfl
      exact absurd horderly.2.1 (by decide)
  · cases h

/-- A listing beside a document that has come to few errors: it has the errors that the document
builder is not to blame for, and the calls are the same. The others are those of the tables. -/
theorem listing_of_document {document : Parser DocumentBuilder} {listing : Parser Listing}
    (hstop : document.stopAtFirst = false) (hsame : listing.mode = document.mode)
    (hes : es.length ≤ Run.tolerance) (h : document.errors? matcher source = some es) :
    listing.errors? matcher source = some (es.filter fun e => !e.isMalformed) ∧
      listing.calls matcher source = document.calls matcher source ∧
      es.filter ParseError.isMalformed =
        (Call.tables (document.calls matcher source)).filterMap RawTable.error? := by
  obtain ⟨last, closed, hloop, hclose, rfl, hbuilder⟩ :=
    ending_of_errors DocumentBuilder.sturdy hstop hes h
  have hstart : Run.Shadows (document.recording.opening matcher source)
      (listing.recording.opening matcher source) := ⟨rfl, rfl, rfl, rfl⟩
  obtain ⟨last', hloop', hlast⟩ := (Run.steps_shadowed DocumentBuilder.blames Listing.silent
    ((Text.lines source).length + 1) .start hstart).of_eq hloop
  obtain ⟨closed', hclose', hclosed⟩ := (Run.call_shadowed DocumentBuilder.blames Listing.silent
    (.closed .document) hlast).of_eq hclose
  have hmode : document.recording.mode = listing.recording.mode := hsame.symm
  rw [hmode] at hloop'
  rw [← hsame] at hclose'
  obtain ⟨herrors, hbuilder'⟩ := errors?_of_ending Listing.sturdy (fun _ _ hf => nomatch hf)
    hloop' hclose'
  refine ⟨?_, ?_, ?_⟩
  · rw [herrors, hclosed.errors]
  · rw [calls, calls, hbuilder, hbuilder', hclosed.calls]
  · rw [calls, hbuilder]
    exact table_errors hloop hclose

/-- The builder does not influence the parse. If the document is built, the tokens are listed, and no
table is ragged. If the document comes to no more errors than are tolerated, the listing has those of
them that do not say that a part cannot be built, in their order, and succeeds if there are none; and
those that do say so stand for the ragged tables among the calls, one for each, at the first row that
is out of line. In both cases the calls to the two builders are the same. -/
theorem listing_beside_document (document : Parser DocumentBuilder) (listing : Parser Listing)
    (hdocument : document.stopAtFirst = false) (hlisting : listing.stopAtFirst = false)
    (matcher : Matcher) (source : Text) :
    (∀ d, (document.parse matcher source).outcome = .ok d →
      (∃ text, (listing.parse matcher source).outcome = .ok text) ∧
      listing.calls matcher source = document.calls matcher source ∧
      (Call.tables (document.calls matcher source)).filter RawTable.ragged = []) ∧
    ∀ es, (document.parse matcher source).outcome = .error (.errors es) → es.length ≤ 10 →
      ((es.filter (fun e => !e.isMalformed) = [] ∧
          ∃ text, (listing.parse matcher source).outcome = .ok text) ∨
        (es.filter (fun e => !e.isMalformed) ≠ [] ∧
          (listing.parse matcher source).outcome =
            .error (.errors (es.filter fun e => !e.isMalformed)))) ∧
      listing.calls matcher source = document.calls matcher source ∧
      List.Forall₂ (fun x e => ∃ t, RawTable.OutOfLine x t ∧
          e = ParseError.placed t.location.place .unevenTable)
        ((Call.tables (document.calls matcher source)).filter RawTable.ragged)
        (es.filter ParseError.isMalformed) := by
  have hsame : listing.mode = document.mode := by
    rw [mode, mode, hdocument, hlisting]
  refine ⟨fun d hd => ?_, fun es hes hlen => ?_⟩
  · obtain ⟨herrors, hcalls, htables⟩ :=
      listing_of_document hdocument hsame (Nat.zero_le _) (errors?_of_ok hd)
    have hragged := RawTable.forall₂_errors (Call.tables (document.calls matcher source))
    rw [← htables] at hragged
    refine ⟨?_, hcalls, List.forall₂_nil_right_iff.mp hragged⟩
    obtain ⟨_, htext⟩ | ⟨hne, _⟩ := listing_outcome herrors
    · exact htext
    · exact absurd rfl hne
  · obtain ⟨herrors, hcalls, htables⟩ :=
      listing_of_document hdocument hsame hlen (errors?_of_errors hes)
    refine ⟨listing_outcome herrors, hcalls, ?_⟩
    rw [htables]
    exact RawTable.forall₂_errors _

/-- Two ragged tables among other tables, with a line between them that nobody expects. -/
def tornSource : Text :=
  ("Feature:\nScenario:\n* s\n|a|b|\n# c\n|d|\n|e|\nnothing\n* t\n|f|\nScenario Outline:\n* u\n" ++
    "Examples:\n|g|\n|h|\n|i|j|\n").toList

theorem listing_beside_document_tornSource :
    ∃ es, (parse { builder := ({} : DocumentBuilder) } (.new .plain .english)
        tornSource).outcome = .error (.errors es) ∧
      es.map (fun e => (e.isMalformed, e.place.line)) = [(false, 8), (true, 6), (true, 16)] ∧
      (parse { builder := ({} : Listing) } (.new .plain .english) tornSource).outcome =
        .error (.errors (es.filter fun e => !e.isMalformed)) ∧
      List.Forall₂ (fun x e => ∃ t, RawTable.OutOfLine x t ∧
          e = ParseError.placed t.location.place .unevenTable)
        ((Call.tables (calls { builder := ({} : DocumentBuilder) } (.new .plain .english)
          tornSource)).filter RawTable.ragged)
        (es.filter ParseError.isMalformed) := by
  have hplaces : ((errors? { builder := ({} : DocumentBuilder) } (.new .plain .english)
      tornSource).getD []).map (fun e => (e.isMalformed, e.place.line)) =
        [(false, 8), (true, 6), (true, 16)] := by decide +kernel
  cases h : (parse { builder := ({} : DocumentBuilder) } (.new .plain .english)
      tornSource).outcome with
  | ok d =>
      rw [errors?, h] at hplaces
      cases hplaces
  | error halt =>
      cases halt with
      | error e =>
          rw [errors?, h] at hplaces
          cases hplaces
      | fault f =>
          rw [errors?, h] at hplaces
          cases hplaces
      | errors es =>
          rw [errors?_of_errors h, Option.getD_some] at hplaces
          have hlen : es.length = 3 := by
            simpa using congrArg List.length hplaces
          obtain ⟨houtcome, _, htables⟩ := (listing_beside_document
            { builder := ({} : DocumentBuilder) } { builder := ({} : Listing) } rfl rfl
            (.new .plain .english) tornSource).2 es h (by omega)
          refine ⟨es, rfl, hplaces, ?_, htables⟩
          obtain ⟨hnil, _⟩ | ⟨_, herrors⟩ := houtcome
          · have hcount := congrArg (List.filter fun x => !x.1) hplaces
            rw [List.filter_map] at hcount
            rw [show ((fun x : Bool × Int => !x.1) ∘ fun e : ParseError =>
              (e.isMalformed, e.place.line)) = fun e => !e.isMalformed from rfl, hnil] at hcount
            cases hcount
          · exact herrors

end Parser

end FeatureFile
