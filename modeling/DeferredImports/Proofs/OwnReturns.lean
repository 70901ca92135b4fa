import DeferredImports.Source.ReturnTypes

/-! The return statements of a function's own scope. Main statement: the type that is inferred for a
function without an annotation is that of elements, and it is inferred exactly if its body yields an
element or has own return statements that all return one. -/

namespace DeferredImports.ParseTree

/-- The node is the return statement, or has it below itself outside of nested scopes. -/
inductive HoldsReturn : ParseTree → ParseTree → Prop
  | self {r : ParseTree} (hr : r.type = "return_statement") : HoldsReturn r r
  | inside {t c r : ParseTree} (ht : t.type ≠ "return_statement") (hs : ¬ t.isNestedScope)
      (hc : c ∈ t.namedChildren) (h : HoldsReturn c r) : HoldsReturn t r

/-- A return statement below the node that belongs to the node's own scope. -/
def OwnReturn (t r : ParseTree) : Prop := ∃ c ∈ t.namedChildren, c.HoldsReturn r

theorem holdsReturn_iff {t r : ParseTree} :
    t.HoldsReturn r ↔ t.type = "return_statement" ∧ r = t ∨
      t.type ≠ "return_statement" ∧ ¬ t.isNestedScope ∧ t.OwnReturn r := by
  constructor
  · intro h
    cases h with
    | self hr => exact .inl ⟨hr, rfl⟩
    | inside ht hs hc h => exact .inr ⟨ht, hs, _, hc, h⟩
  · rintro (⟨hr, rfl⟩ | ⟨ht, hs, c, hc, h⟩)
    · exact .self hr
    · exact .inside ht hs hc h

theorem ownReturns_eq (t : ParseTree) : t.ownReturns = ownReturnsIn t.children := by
  cases t
  rw [ownReturns]

theorem mem_ownReturnsIn {ts : List ParseTree} {r : ParseTree} :
    r ∈ ownReturnsIn ts ↔ ∃ c ∈ ts, c.isNamed ∧
      (c.type = "return_statement" ∧ r = c ∨
        c.type ≠ "return_statement" ∧ ¬ c.isNestedScope ∧ r ∈ c.ownReturns) := by
  induction ts with
  | nil => simp [ownReturnsIn]
  | cons c cs ih =>
    rw [ownReturnsIn, List.mem_append, ih]
    simp only [List.mem_cons, exists_eq_or_imp]
    apply or_congr_left
    by_cases hn : c.isNamed <;> by_cases hr : c.type = "return_statement" <;>
      by_cases hs : c.isNestedScope <;> simp [hn, hr, hs]

theorem mem_ownReturns {t r : ParseTree} : r ∈ t.ownReturns ↔ t.OwnReturn r := by
  induction hn : sizeOf t using Nat.strongRecOn generalizing t with
  | ind n ih =>
    subst hn
    rw [ownReturns_eq, mem_ownReturnsIn]
    unfold OwnReturn namedChildren
    simp only [List.mem_filter, and_assoc]
    refine exists_congr fun c => and_congr_right fun hc => and_congr_right fun _ => ?_
    rw [ih _ (sizeOf_lt_of_mem_children hc) rfl, holdsReturn_iff]

/-- A block has the type that all its own return statements have, if there are any. -/
theorem blockType?_eq_some_iff {t : ParseTree} {type : TypeSymbol} :
    t.blockType? = some type ↔
      (∃ r, t.OwnReturn r) ∧ ∀ r, t.OwnReturn r → r.returnedType? = some type := by
  simp only [← mem_ownReturns, blockType?]
  cases t.ownReturns with
  | nil => simp
  | cons first others =>
    have hex : ∃ r, r ∈ first :: others := ⟨first, List.mem_cons_self⟩
    simp only [hex, true_and, List.map_cons, List.forall_mem_cons]
    cases hfirst : first.returnedType? with
    | none => simp
    | some found =>
      simp only [Option.some.injEq]
      constructor
      · intro h
        split at h
        · next hall =>
          obtain rfl := Option.some.inj h
          refine ⟨rfl, fun r hr => ?_⟩
          have hmem := List.all_eq_true.1 hall _ (List.mem_map_of_mem hr)
          simpa using hmem
        · cases h
      · rintro ⟨rfl, hall⟩
        rw [if_pos]
        simpa using hall

/-- An expression that yields an element: an element, such an expression in parentheses, or a
conditional with such expressions as both branches. -/
inductive IsElement : ParseTree → Prop
  | element {t : ParseTree} (h : t.isJsx) : IsElement t
  | parenthesized {t inner : ParseTree} (ht : t.type = "parenthesized_expression")
      (hi : t.firstMeaningful? = some inner) (h : IsElement inner) : IsElement t
  | conditional {t a b : ParseTree} (ht : t.type = "ternary_expression")
      (ha : t.child? .consequence = some a) (hb : t.child? .alternative = some b)
      (hfirst : IsElement a) (hsecond : IsElement b) : IsElement t

/-- A type is known exactly for the expressions that yield elements, and it is that of elements. -/
theorem expressionType?_eq_some_iff {t : ParseTree} {type : TypeSymbol} :
    t.expressionType? = some type ↔ type = .jsxElement ∧ t.IsElement := by
  constructor
  · intro h
    induction hn : sizeOf t using Nat.strongRecOn generalizing t with
    | ind n ih =>
      subst hn
      unfold expressionType? at h
      split at h
      · next hjsx => exact ⟨(Option.some.inj h).symm, .element hjsx⟩
      split at h
      · next ht =>
        split at h
        · cases h
        · next inner hinner =>
          obtain ⟨htype, helement⟩ := ih _ (sizeOf_lt_of_firstMeaningful? hinner) h rfl
          exact ⟨htype, .parenthesized (by simpa using ht) hinner helement⟩
      split at h
      · next ht =>
        split at h
        · next a b ha hb =>
          split at h
          · cases h
          · next found hfound =>
            split at h
            · next hother =>
              obtain rfl := Option.some.inj h
              obtain ⟨htype, hfirst⟩ := ih _ (sizeOf_lt_of_child? ha) hfound rfl
              obtain ⟨-, hsecond⟩ := ih _ (sizeOf_lt_of_child? hb) hother rfl
              exact ⟨htype, .conditional (by simpa using ht) ha hb hfirst hsecond⟩
            · cases h
        · cases h
      · cases h
  · rintro ⟨rfl, h⟩
    induction h with
    | element h => rw [expressionType?, if_pos h]
    | @parenthesized t inner ht hi _ ih =>
      have hjsx : ¬ t.isJsx := by simp [isJsx, ht]
      rw [expressionType?, if_neg hjsx, if_pos (by simp [ht])]
      split
      · next hnone => simp [hi] at hnone
      · next other hother =>
        obtain rfl := Option.some.inj (hi.symm.trans hother)
        exact ih
    | @conditional t a b ht ha hb _ _ iha ihb =>
      have hjsx : ¬ t.isJsx := by simp [isJsx, ht]
      rw [expressionType?, if_neg hjsx, if_neg (by simp [ht]), if_pos (by simp [ht])]
      split
      · next a' b' ha' hb' =>
        obtain rfl := Option.some.inj (ha.symm.trans ha')
        obtain rfl := Option.some.inj (hb.symm.trans hb')
        simp [iha, ihb]
      · next hother => exact absurd hb (hother a b ha)

end DeferredImports.ParseTree

namespace DeferredImports.SourceFile

/-- Without an annotation a function has the type of elements exactly if its body is an expression
that yields one, or a block with own return statements, each of which returns one. -/
theorem returnType?_eq_some_iff {f : SourceFile} {t : ParseTree} {type : TypeSymbol}
    (h : t.child? .returnType = none) :
    f.returnType? t = some type ↔ type = .jsxElement ∧ ∃ body, t.child? .body = some body ∧
      (body.type ≠ "statement_block" ∧ body.IsElement ∨
        body.type = "statement_block" ∧ (∃ r, body.OwnReturn r) ∧
          ∀ r, body.OwnReturn r → ∃ e, r.firstMeaningful? = some e ∧ e.IsElement) := by
  unfold returnType?
  rw [h]
  cases t.child? .body with
  | none => simp
  | some body =>
    by_cases hb : body.type = "statement_block"
    · simp only [hb, BEq.rfl, if_true, ParseTree.blockType?_eq_some_iff, ParseTree.returnedType?,
        Option.bind_eq_some_iff, ParseTree.expressionType?_eq_some_iff]
      simp only [Option.some.injEq, exists_eq_left', hb, ne_eq, not_true, false_and, true_and,
        false_or]
      constructor
      · rintro ⟨⟨r, hr⟩, hall⟩
        obtain ⟨e, he, htype, -⟩ := hall r hr
        refine ⟨htype, ⟨r, hr⟩, fun r hr => ?_⟩
        obtain ⟨e, he, -, helement⟩ := hall r hr
        exact ⟨e, he, helement⟩
      · rintro ⟨rfl, hex, hall⟩
        refine ⟨hex, fun r hr => ?_⟩
        obtain ⟨e, he, helement⟩ := hall r hr
        exact ⟨e, he, rfl, helement⟩
    · simp [hb, ParseTree.expressionType?_eq_some_iff]

end DeferredImports.SourceFile
