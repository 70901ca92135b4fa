import DeferredImports.Source.ParseTree
import Mathlib.Data.List.Forall2

/-! Lists, options and parse trees that are related part by part. -/

namespace DeferredImports

section relations

variable {α β γ : Type} {R : α → β → Prop} {xs : List α} {ys : List β} {p : α → Bool}
  {q : β → Bool}

theorem forall₂_find? (h : List.Forall₂ R xs ys) (hpq : ∀ a b, R a b → p a = q b) :
    Option.Rel R (xs.find? p) (ys.find? q) := by
  induction h with
  | nil => exact .none
  | @cons a b as bs hab _ ih =>
    rw [List.find?_cons, List.find?_cons, ← hpq a b hab]
    cases p a with
    | true => exact .some hab
    | false => exact ih

theorem forall₂_filter (h : List.Forall₂ R xs ys) (hpq : ∀ a b, R a b → p a = q b) :
    List.Forall₂ R (xs.filter p) (ys.filter q) :=
  List.rel_filter (fun a b hab => by simp only [hpq a b hab]) h

theorem map_eq_of_forall₂ {F : α → γ} {G : β → γ} (h : List.Forall₂ R xs ys)
    (hFG : ∀ a b, R a b → F a = G b) : xs.map F = ys.map G := by
  have hmap := List.rel_map hFG h
  rwa [List.forall₂_eq_eq_eq] at hmap

theorem filterMap_eq_of_forall₂ {F : α → Option γ} {G : β → Option γ} (h : List.Forall₂ R xs ys)
    (hFG : ∀ a b, R a b → F a = G b) : xs.filterMap F = ys.filterMap G := by
  induction h with
  | nil => rfl
  | cons hab _ ih => rw [List.filterMap_cons, List.filterMap_cons, hFG _ _ hab, ih]

theorem isEmpty_eq_of_forall₂ (h : List.Forall₂ R xs ys) : xs.isEmpty = ys.isEmpty := by
  cases h <;> rfl

theorem exists_of_mem_forall₂ (h : List.Forall₂ R xs ys) {a : α} (ha : a ∈ xs) :
    ∃ b ∈ ys, R a b := by
  induction h with
  | nil => cases ha
  | @cons c d _ _ hcd _ ih =>
    rcases List.mem_cons.1 ha with rfl | ha
    · exact ⟨d, List.mem_cons_self, hcd⟩
    · obtain ⟨b, hb, hab⟩ := ih ha
      exact ⟨b, List.mem_cons_of_mem d hb, hab⟩

/-- Related lists are related by all that follows from the relation of their members. -/
theorem forall₂_of_mem {S : α → β → Prop} (h : List.Forall₂ R xs ys)
    (hRS : ∀ a ∈ xs, ∀ b, R a b → S a b) : List.Forall₂ S xs ys := by
  induction h with
  | nil => exact .nil
  | @cons a b as bs hab _ ih =>
    refine .cons (hRS a List.mem_cons_self b hab) (ih fun c hc => ?_)
    exact hRS c (List.mem_cons_of_mem a hc)

theorem rel_getElem? (h : List.Forall₂ R xs ys) (i : Nat) : Option.Rel R xs[i]? ys[i]? := by
  induction h generalizing i with
  | nil => exact .none
  | cons hab _ ih =>
    cases i with
    | zero => exact .some hab
    | succ i => exact ih i

theorem rel_cases {a : Option α} {b : Option β} (h : Option.Rel R a b) :
    a = none ∧ b = none ∨ ∃ x y, a = some x ∧ b = some y ∧ R x y := by
  cases h with
  | none => exact .inl ⟨rfl, rfl⟩
  | some hxy => exact .inr ⟨_, _, rfl, rfl, hxy⟩

theorem eq_none_of_rel {a : Option α} {b : Option β} (h : Option.Rel R a b) (ha : a = none) :
    b = none := by
  subst ha
  cases h with
  | none => rfl

theorem exists_of_rel {a : Option α} {b : Option β} (h : Option.Rel R a b) {x : α}
    (ha : a = some x) : ∃ y, b = some y ∧ R x y := by
  subst ha
  cases h with
  | some hxy => exact ⟨_, rfl, hxy⟩

theorem map_eq_of_rel {a : Option α} {b : Option β} {F : α → γ} {G : β → γ}
    (h : Option.Rel R a b) (hFG : ∀ x y, a = some x → R x y → F x = G y) : a.map F = b.map G := by
  cases h with
  | none => rfl
  | some hxy => exact congrArg some (hFG _ _ rfl hxy)

theorem rel_or {a a' : Option α} {b b' : Option β} (h : Option.Rel R a b)
    (h' : Option.Rel R a' b') : Option.Rel R (a.or a') (b.or b') := by
  cases h with
  | none => exact h'
  | some hab => exact .some hab

end relations

namespace ParseTree

variable {R : ParseTree → ParseTree → Prop} {t u : ParseTree}

theorem forall₂_namedChildren (h : List.Forall₂ R t.children u.children)
    (hR : ∀ c d, R c d → c.isNamed = d.isNamed) :
    List.Forall₂ R t.namedChildren u.namedChildren :=
  forall₂_filter h hR

theorem rel_child? (h : List.Forall₂ R t.children u.children) (hf : t.fields = u.fields)
    (field : TreeField) : Option.Rel R (t.child? field) (u.child? field) := by
  unfold child?
  rw [hf]
  cases u.fields.lookup field with
  | none => exact .none
  | some i => exact rel_getElem? h i

theorem rel_firstMeaningful? (h : List.Forall₂ R t.namedChildren u.namedChildren)
    (hR : ∀ c d, R c d → c.type = d.type) :
    Option.Rel R t.firstMeaningful? u.firstMeaningful? :=
  forall₂_find? h fun c d hc => by rw [hR c d hc]

end ParseTree

end DeferredImports
