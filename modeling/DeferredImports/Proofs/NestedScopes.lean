import DeferredImports.Proofs.OwnReturns
import DeferredImports.Proofs.RelatedTrees

/-! What stands in nested scopes. Main statement: the type that is inferred for a function is decided
by its own return statements alone, and stays the same whatever the scopes below it hold. -/

namespace DeferredImports

namespace ParseTree

/-- The second tree is the first one with other content in some of its nested scopes. Where the nodes
stand in a file does not matter. -/
inductive Refilled : ParseTree → ParseTree → Prop
  | scope {t u : ParseTree} (hs : t.isNestedScope) (htype : t.type = u.type)
      (hnamed : t.isNamed = u.isNamed) : Refilled t u
  | node {t u : ParseTree} (htype : t.type = u.type) (hnamed : t.isNamed = u.isNamed)
      (hfields : t.fields = u.fields) (h : List.Forall₂ Refilled t.children u.children) :
      Refilled t u

/-- The second tree is the first one with other content in some of the nested scopes below it. -/
structure RefilledBelow (t u : ParseTree) : Prop where
  fields : t.fields = u.fields
  children : List.Forall₂ Refilled t.children u.children

/-- The nodes that an inferred type is read from are no nested scopes. -/
theorem not_isNestedScope {t : ParseTree}
    (h : t.type ∈ ["statement_block", "return_statement", "parenthesized_expression",
      "ternary_expression"]) : ¬ t.isNestedScope := by
  simp only [List.mem_cons, List.not_mem_nil, or_false] at h
  rcases h with h | h | h | h <;>
    simp [isNestedScope, isFunctionLike, isFunctionDeclaration, isFunctionExpression, isClass, h]

theorem IsElement.type_ne {t : ParseTree} (h : t.IsElement) : t.type ≠ "statement_block" := by
  intro ht
  cases h with
  | element hjsx => simp [isJsx, ht] at hjsx
  | parenthesized htype => simp [ht] at htype
  | conditional htype => simp [ht] at htype

variable {t u : ParseTree}

namespace Refilled

theorem type (h : t.Refilled u) : t.type = u.type := by
  cases h with
  | scope _ htype => exact htype
  | node htype => exact htype

theorem isNamed (h : t.Refilled u) : t.isNamed = u.isNamed := by
  cases h with
  | scope _ _ hnamed => exact hnamed
  | node _ hnamed => exact hnamed

theorem isNestedScope (h : t.Refilled u) : t.isNestedScope = u.isNestedScope := by
  unfold ParseTree.isNestedScope isFunctionLike isFunctionDeclaration isFunctionExpression isClass
  rw [h.type]

theorem refilledBelow (h : t.Refilled u) (hs : ¬ t.isNestedScope) : t.RefilledBelow u := by
  cases h with
  | scope hscope => exact absurd hscope hs
  | node _ _ hfields hchildren => exact ⟨hfields, hchildren⟩

theorem symm (h : t.Refilled u) : u.Refilled t := by
  induction hn : sizeOf t using Nat.strongRecOn generalizing t u with
  | ind n ih =>
    subst hn
    by_cases hs : t.isNestedScope
    · exact .scope (h.isNestedScope ▸ hs) h.type.symm h.isNamed.symm
    · obtain ⟨hfields, hchildren⟩ := h.refilledBelow hs
      have hflip : List.Forall₂ (fun c d => Refilled d c) t.children u.children :=
        forall₂_of_mem hchildren fun c hc d hcd => ih _ (sizeOf_lt_of_mem_children hc) hcd rfl
      exact .node h.type.symm h.isNamed.symm hfields.symm hflip.flip

end Refilled

namespace RefilledBelow

variable (h : t.RefilledBelow u)
include h

theorem symm : u.RefilledBelow t :=
  ⟨h.fields.symm, (h.children.imp fun _ _ hc => hc.symm).flip⟩

theorem namedChildren : List.Forall₂ Refilled t.namedChildren u.namedChildren :=
  forall₂_namedChildren h.children fun _ _ hc => hc.isNamed

theorem child? (field : TreeField) : Option.Rel Refilled (t.child? field) (u.child? field) :=
  rel_child? h.children h.fields field

theorem firstMeaningful? : Option.Rel Refilled t.firstMeaningful? u.firstMeaningful? :=
  rel_firstMeaningful? h.namedChildren fun _ _ hc => hc.type

end RefilledBelow

/-- Whether an expression yields an element is told outside of nested scopes. -/
theorem Refilled.isElement (h : t.Refilled u) (ht : t.IsElement) : u.IsElement := by
  induction ht generalizing u with
  | element hjsx =>
    refine .element ?_
    unfold isJsx at hjsx ⊢
    rwa [h.type] at hjsx
  | parenthesized htype hi _ ih =>
    have hbelow := h.refilledBelow (not_isNestedScope (by simp [htype]))
    obtain ⟨inner, hinner, hrefilled⟩ := exists_of_rel hbelow.firstMeaningful? hi
    exact .parenthesized (h.type ▸ htype) hinner (ih hrefilled)
  | conditional htype ha hb _ _ iha ihb =>
    have hbelow := h.refilledBelow (not_isNestedScope (by simp [htype]))
    obtain ⟨a, hu, hfirst⟩ := exists_of_rel (hbelow.child? .consequence) ha
    obtain ⟨b, hu', hsecond⟩ := exists_of_rel (hbelow.child? .alternative) hb
    exact .conditional (h.type ▸ htype) hu hu' (iha hfirst) (ihb hsecond)

theorem Refilled.holdsReturn (h : t.Refilled u) {r : ParseTree} (hr : t.HoldsReturn r) :
    ∃ r', u.HoldsReturn r' ∧ r.Refilled r' := by
  induction hr generalizing u with
  | self htype => exact ⟨u, .self (h.type ▸ htype), h⟩
  | inside htype hscope hc _ ih =>
    obtain ⟨d, hd, hcd⟩ := exists_of_mem_forall₂ (h.refilledBelow hscope).namedChildren hc
    obtain ⟨r', hr', hreturn⟩ := ih hcd
    exact ⟨r', .inside (h.type ▸ htype) (h.isNestedScope ▸ hscope) hd hr', hreturn⟩

theorem RefilledBelow.ownReturn (h : t.RefilledBelow u) {r : ParseTree} (hr : t.OwnReturn r) :
    ∃ r', u.OwnReturn r' ∧ r.Refilled r' := by
  obtain ⟨c, hc, hholds⟩ := hr
  obtain ⟨d, hd, hcd⟩ := exists_of_mem_forall₂ h.namedChildren hc
  obtain ⟨r', hr', hreturn⟩ := hcd.holdsReturn hholds
  exact ⟨r', ⟨d, hd, hr'⟩, hreturn⟩

/-- Return statements that correspond return an element, or neither does. -/
theorem Refilled.returnsElement {r r' e : ParseTree} (h : r.Refilled r')
    (hr : r.type = "return_statement") (he : r.firstMeaningful? = some e) (helement : e.IsElement) :
    ∃ e', r'.firstMeaningful? = some e' ∧ e'.IsElement := by
  have hbelow := h.refilledBelow (not_isNestedScope (by simp [hr]))
  obtain ⟨e', he', hvalue⟩ := exists_of_rel hbelow.firstMeaningful? he
  exact ⟨e', he', hvalue.isElement helement⟩

theorem HoldsReturn.type_eq {r : ParseTree} (h : t.HoldsReturn r) : r.type = "return_statement" := by
  induction h with
  | self hr => exact hr
  | inside _ _ _ _ ih => exact ih

theorem OwnReturn.type_eq {r : ParseTree} (h : t.OwnReturn r) : r.type = "return_statement" := by
  obtain ⟨_, _, hholds⟩ := h
  exact hholds.type_eq

end ParseTree

namespace SourceFile

open ParseTree

variable {f g : SourceFile} {t u : ParseTree}

/-- A type that is inferred for a function is inferred whatever its nested scopes hold. -/
theorem returnType?_of_refilledBelow (h : t.RefilledBelow u) (ha : t.child? .returnType = none)
    {type : TypeSymbol} (ht : f.returnType? t = some type) : g.returnType? u = some type := by
  have ha' := eq_none_of_rel (h.child? .returnType) ha
  obtain ⟨htype, body, hbody, hkind⟩ := (returnType?_eq_some_iff ha).1 ht
  obtain ⟨d, hd, hbodies⟩ := exists_of_rel (h.child? .body) hbody
  refine (returnType?_eq_some_iff ha').2 ⟨htype, d, hd, ?_⟩
  rcases hkind with ⟨hblock, helement⟩ | ⟨hblock, ⟨r, hr⟩, hall⟩
  · exact .inl ⟨hbodies.type ▸ hblock, hbodies.isElement helement⟩
  · have hbelow := hbodies.refilledBelow (not_isNestedScope (by simp [hblock]))
    refine .inr ⟨hbodies.type ▸ hblock, ?_, fun r' hr' => ?_⟩
    · obtain ⟨r', hr', -⟩ := hbelow.ownReturn hr
      exact ⟨r', hr'⟩
    · obtain ⟨r, hr, hreturn⟩ := hbelow.symm.ownReturn hr'
      obtain ⟨e, he, helement⟩ := hall r hr
      exact hreturn.symm.returnsElement hr.type_eq he helement

theorem returnType?_eq_of_refilledBelow (h : t.RefilledBelow u)
    (ha : t.child? .returnType = none) : f.returnType? t = g.returnType? u := by
  have ha' := eq_none_of_rel (h.child? .returnType) ha
  refine Option.ext fun type => ?_
  exact ⟨returnType?_of_refilledBelow h ha, returnType?_of_refilledBelow h.symm ha'⟩

/-- A function without an annotation has the type of elements exactly if its body is an expression
that yields one, or a block with own return statements, each of which returns one; else it has no
type. What the scopes below the function hold makes no difference. -/
theorem returnType?_own_scope (f : SourceFile) {t body : ParseTree}
    (ha : t.child? .returnType = none) (hb : t.child? .body = some body) :
    (f.returnType? t = some .jsxElement ↔
      body.IsElement ∨ body.type = "statement_block" ∧ (∃ r, body.OwnReturn r) ∧
        ∀ r, body.OwnReturn r → ∃ e, r.firstMeaningful? = some e ∧ e.IsElement) ∧
      (f.returnType? t ≠ some .jsxElement → f.returnType? t = none) ∧
      ∀ (g : SourceFile) (u : ParseTree), t.RefilledBelow u → g.returnType? u = f.returnType? t := by
  refine ⟨?_, ?_, fun g u h => (returnType?_eq_of_refilledBelow h ha).symm⟩
  · rw [returnType?_eq_some_iff ha, hb]
    simp only [Option.some.injEq, exists_eq_left', true_and]
    exact or_congr_left ⟨And.right, fun h => ⟨h.type_ne, h⟩⟩
  · intro hne
    cases ht : f.returnType? t with
    | none => rfl
    | some type =>
      obtain ⟨rfl, -⟩ := (returnType?_eq_some_iff ha).1 ht
      exact absurd ht hne

/-- The tree of the statement `return <p/>;` from an offset on. -/
def elementReturn (start : Nat) : ParseTree :=
  ⟨"return_statement", true, false, start, start + 12,
    [⟨"jsx_self_closing_element", true, false, start + 7, start + 11, [], []⟩], []⟩

/-- The tree of a block with the statements `const g = ..;` and `return <p/>;`, where a handler is
the value of the constant. -/
def handlerBlock (handler : ParseTree) : ParseTree :=
  ⟨"statement_block", true, false, 13, handler.stop + 16,
    [⟨"lexical_declaration", true, false, 15, handler.stop + 1,
        [⟨"variable_declarator", true, false, 21, handler.stop,
          [⟨"identifier", true, false, 21, 22, [], []⟩, handler], [(.name, 0), (.value, 1)]⟩], []⟩,
      elementReturn (handler.stop + 2)], []⟩

/-- The tree of a function with this block. -/
def handlerFunction (handler : ParseTree) : ParseTree :=
  ⟨"function_declaration", true, false, 0, handler.stop + 16,
    [⟨"identifier", true, false, 9, 10, [], []⟩, handlerBlock handler], [(.name, 0), (.body, 1)]⟩

/-- The tree of `() => { return 1; }`. -/
def numberHandler : ParseTree :=
  ⟨"arrow_function", true, false, 25, 44, [⟨"statement_block", true, false, 31, 44,
    [⟨"return_statement", true, false, 33, 42,
      [⟨"number", true, false, 40, 41, [], []⟩], []⟩], []⟩], [(.body, 0)]⟩

/-- The tree of `() => 1`. -/
def shortHandler : ParseTree :=
  ⟨"arrow_function", true, false, 25, 32, [⟨"number", true, false, 31, 32, [], []⟩], [(.body, 0)]⟩

theorem handlerFunction_refilledBelow {handler other : ParseTree} (h : handler.Refilled other) :
    (handlerFunction handler).RefilledBelow (handlerFunction other) := by
  have hreturn : (elementReturn (handler.stop + 2)).Refilled (elementReturn (other.stop + 2)) :=
    .node rfl rfl rfl (.cons (.node rfl rfl rfl .nil) .nil)
  have hblock : (handlerBlock handler).Refilled (handlerBlock other) := by
    refine .node rfl rfl rfl (.cons (.node rfl rfl rfl (.cons ?_ .nil)) (.cons hreturn .nil))
    exact .node rfl rfl rfl (.cons (.node rfl rfl rfl .nil) (.cons h .nil))
  exact ⟨rfl, .cons (.node rfl rfl rfl .nil) (.cons hblock .nil)⟩

theorem returnType?_own_scope_handler :
    (handlerFunction numberHandler).child? .returnType = none ∧
      (handlerFunction numberHandler).child? .body = some (handlerBlock numberHandler) ∧
      (default : SourceFile).returnType? (handlerFunction numberHandler) = some .jsxElement ∧
      (default : SourceFile).returnType? (handlerFunction shortHandler) = some .jsxElement := by
  have hreturns : (handlerBlock numberHandler).ownReturns = [elementReturn 46] := rfl
  obtain ⟨htype, -, hother⟩ :=
    returnType?_own_scope (default : SourceFile) (t := handlerFunction numberHandler) rfl rfl
  have helement : (default : SourceFile).returnType? (handlerFunction numberHandler) =
      some .jsxElement := by
    refine htype.2 (.inr ⟨rfl, ⟨elementReturn 46, ?_⟩, fun r hr => ?_⟩)
    · exact mem_ownReturns.1 (hreturns ▸ List.mem_cons_self)
    · obtain rfl := List.mem_singleton.1 (hreturns ▸ mem_ownReturns.2 hr)
      exact ⟨_, rfl, .element rfl⟩
  have hrefilled : numberHandler.Refilled shortHandler := .scope rfl rfl rfl
  refine ⟨rfl, rfl, helement, ?_⟩
  exact (hother default _ (handlerFunction_refilledBelow hrefilled)).trans helement

end SourceFile

end DeferredImports
