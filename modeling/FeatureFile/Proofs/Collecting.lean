import FeatureFile.Fault
import Mathlib.Data.List.Forall2

/-!
# Item by item

Work on a list that goes from item to item and stops at the first fault has a result for every item,
or none at all. So what it gives corresponds to what it was given, item by item and in order; and if
other work does the same on every item, up to some change of the results, then so it does on the list.
-/

namespace FeatureFile

variable {α β γ : Type}

/-- Work in two parts has a result if both parts have one. -/
theorem exists_of_bind_ok {ε : Type} {x : Except ε α} {f : α → Except ε β} {b : β}
    (h : (x >>= f) = .ok b) : ∃ a, x = .ok a ∧ f a = .ok b := by
  cases x with
  | error e => cases h
  | ok a => exact ⟨a, rfl, h⟩

theorem forall₂_of_collect {f : α → Except Fault β} {as : List α} {bs : List β}
    (h : collect f as = .ok bs) : List.Forall₂ (fun a b => f a = .ok b) as bs := by
  induction as generalizing bs with
  | nil =>
      cases h
      exact .nil
  | cons a as ih =>
      rw [collect] at h
      obtain ⟨b, hb, h⟩ := exists_of_bind_ok h
      obtain ⟨rest, hrest, h⟩ := exists_of_bind_ok h
      cases h
      exact .cons hb (ih hrest)

theorem collect_of_forall₂ {f : α → Except Fault β} {as : List α} {bs : List β}
    (h : List.Forall₂ (fun a b => f a = .ok b) as bs) : collect f as = .ok bs := by
  induction h with
  | nil => rfl
  | cons hfirst _ ih =>
      rw [collect, hfirst, ih]
      rfl

theorem collect_map {f : β → Except Fault γ} {g : α → β} {k : α → γ}
    (h : ∀ a, f (g a) = .ok (k a)) (as : List α) : collect f (as.map g) = .ok (as.map k) := by
  induction as with
  | nil => rfl
  | cons a as ih =>
      rw [List.map_cons, collect, h, ih]
      rfl

/-- Work in two parts, of which both correspond to other work. -/
theorem bind_eq_map {ε α' β' : Type} {x : Except ε α} {x' : Except ε α'} {f : α → Except ε β}
    {f' : α' → Except ε β'} (g : α → α') {h : β → β'} (hx : x' = x.map g)
    (hf : ∀ a, f' (g a) = (f a).map h) : (x' >>= f') = (x >>= f).map h := by
  subst hx
  cases x with
  | error e => rfl
  | ok a => exact hf a

/-- Work on a list, which corresponds to other work item by item. -/
theorem collect_corresponds {α' β' : Type} {f : α → Except Fault β} {f' : α' → Except Fault β'}
    {u : γ → α} {v : γ → α'} {h : β → β'} (hf : ∀ c, f' (v c) = (f (u c)).map h) (cs : List γ) :
    collect f' (cs.map v) = (collect f (cs.map u)).map (List.map h) := by
  induction cs with
  | nil => rfl
  | cons c cs ih =>
      rw [List.map_cons, List.map_cons, collect, collect]
      exact bind_eq_map h (hf c) fun b => bind_eq_map (List.map h) ih fun bs => rfl

theorem collect_map_corresponds {α' β' : Type} {f : α → Except Fault β} {f' : α' → Except Fault β'}
    {v : α → α'} {h : β → β'} (hf : ∀ a, f' (v a) = h <$> f a) (as : List α) :
    collect f' (as.map v) = List.map h <$> collect f as := by
  have has := collect_corresponds (u := id) hf as
  rwa [List.map_id] at has

theorem map_eq_of_forall₂ {r : α → β → Prop} {as : List α} {xs : List β} {f : β → γ} {g : α → γ}
    (h : List.Forall₂ r as xs) (heq : ∀ a x, r a x → f x = g a) : xs.map f = as.map g := by
  induction h with
  | nil => rfl
  | cons hx _ ih => rw [List.map_cons, List.map_cons, heq _ _ hx, ih]

end FeatureFile
