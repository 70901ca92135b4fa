import DeferredImports.Proofs.NamePreservation

/-! The plan for any import, whatever its parts are. Main statement: a plan either leaves the import
alone, or it was built from the names that were classified as components. -/

namespace DeferredImports

namespace Plan

variable {ω σ : Type} {oracle : Oracle ω σ} {options : Options} {d : ImportStatement}
  {file : String} {names : List String} {plan : Plan} {p p' : Progress σ}

/-- The plan defers some names of an import: a constant for each of them and the import of the other
names stand in its place, after the injected import. -/
structure IsBuilt (options : Options) (d : ImportStatement) (file : String) (plan : Plan) :
    Prop where
  componentNames_ne : plan.componentNames ≠ []
  residual : ∃ found, residualImport d plan.componentNames = .ok found ∧
    plan.residual = found.map Prod.fst
  statements : ∃ constants first others head,
    List.Forall₂ (IsLazyConstant options.wrapperExpression d) plan.componentNames constants ∧
    (options.injectedImport file).toList ++ constants ++
        (plan.residual.map ImportStatement.toNode).toList = first :: others ∧
    first.withLeadingTrivia d.leadingTrivia = .ok head ∧ plan.statements = head :: others

theorem forall₂_of_lazyBindings {constants : List Node}
    (h : (lazyBindings options d names : Session σ (List Node)).runFrom p = (.ok constants, p')) :
    List.Forall₂ (IsLazyConstant options.wrapperExpression d) names constants := by
  induction names generalizing p constants with
  | nil =>
    cases h
    exact .nil
  | cons name names ih =>
    unfold lazyBindings at h
    obtain ⟨l, hloader, h⟩ := Effect.ofExcept_bind_eq_ok h
    obtain ⟨q', -, h⟩ := Session.exists_runFrom_of_act_if h
    obtain ⟨others, r, hothers, h⟩ := Effect.runFrom_bind_eq_ok h
    cases h
    exact .cons ⟨l, none, hloader, rfl⟩ (ih hothers)

theorem askInjected_eq {injected : Option Node}
    (h : (askInjected options file : Session σ (Option Node)).runFrom p = (.ok injected, p')) :
    injected = options.injectedImport file := by
  unfold askInjected at h
  obtain ⟨q, -, h⟩ := Session.exists_runFrom_of_act_if h
  cases h
  rfl

/-- Building leaves the import alone, if it would not vanish and may not stay in part, or defers all
the names. -/
theorem build_cases (hnames : names ≠ [])
    (h : (build options d names file : Session σ Plan).runFrom p = (.ok plan, p')) :
    plan = unchanged d ∨
      plan.deferred = true ∧ plan.componentNames = names ∧ IsBuilt options d file plan := by
  unfold build at h
  obtain ⟨constants, q, hconstants, h⟩ := Effect.runFrom_bind_eq_ok h
  obtain ⟨residual, hfound, h⟩ := Effect.ofExcept_bind_eq_ok h
  dsimp only at h
  split at h
  · obtain ⟨_, _, -, h⟩ := Effect.runFrom_bind_eq_ok h
    obtain ⟨_, _, -, h⟩ := Effect.runFrom_bind_eq_ok h
    cases h
    exact .inl rfl
  · obtain ⟨injected, _, hinjected, h⟩ := Effect.runFrom_bind_eq_ok h
    have hlazy := forall₂_of_lazyBindings hconstants
    rw [askInjected_eq hinjected] at h
    split at h
    · cases h
    · next first others hlist =>
      obtain ⟨head, hhead, h⟩ := Effect.ofExcept_bind_eq_ok h
      obtain ⟨_, _, -, h⟩ := Effect.runFrom_bind_eq_ok h
      obtain ⟨_, _, -, h⟩ := Effect.runFrom_bind_eq_ok h
      cases h
      exact .inr ⟨rfl, rfl, hnames, ⟨residual, hfound, rfl⟩, constants, first, others, head, hlazy,
        hlist, hhead, rfl⟩

/-- A plan leaves its import alone, or defers the names that were classified as components. -/
theorem ofImport_cases (h : (ofImport oracle options d file).runFrom p = (.ok plan, p')) :
    plan = unchanged d ∨ plan.deferred = true ∧ IsBuilt options d file plan := by
  unfold ofImport at h
  split at h
  · cases h
    exact .inl rfl
  obtain ⟨specifier, _, -, h⟩ := Effect.runFrom_bind_eq_ok h
  obtain ⟨q, -, h⟩ := Session.exists_runFrom_of_act_if h
  dsimp only at h
  split at h
  · obtain ⟨_, _, -, h⟩ := Effect.runFrom_bind_eq_ok h
    cases h
    exact .inl rfl
  · obtain ⟨names, _, -, h⟩ := Effect.runFrom_bind_eq_ok h
    split at h
    · cases h
      exact .inl rfl
    · next hne =>
      rcases build_cases hne h with hplan | ⟨hdeferred, -, hbuilt⟩
      · exact .inl hplan
      · exact .inr ⟨hdeferred, hbuilt⟩

/-- Where nothing is injected, the constants come first and the import of the other names last. -/
theorem IsBuilt.statements_eq (h : IsBuilt options d file plan)
    (hi : options.injectedImport file = none) :
    ∃ constants, plan.statements =
        constants ++ (plan.residual.map ImportStatement.toNode).toList ∧
      List.Forall₂ (IsLazyConstant options.wrapperExpression d) plan.componentNames constants := by
  obtain ⟨constants, first, others, head, hconstants, hlist, hhead, hstatements⟩ := h.statements
  have hne := h.componentNames_ne
  rw [hi] at hlist
  rw [hstatements]
  generalize plan.componentNames = names at hconstants hne ⊢
  cases hconstants with
  | nil => exact absurd rfl hne
  | cons hc hcs =>
    obtain ⟨hfirst, hothers⟩ := List.cons.inj hlist
    obtain ⟨head', hhead', hc'⟩ := hc.withLeadingTrivia d.leadingTrivia
    have heq : head' = head := by
      rw [hfirst, hhead] at hhead'
      exact (Except.ok.inj hhead').symm
    rw [heq] at hc'
    exact ⟨head :: _, by rw [← hothers]; rfl, .cons hc' hcs⟩

/-- Constants are no imports. -/
theorem import?_of_mem_constants {wrapper : Node} {constants : List Node}
    (h : List.Forall₂ (IsLazyConstant wrapper d) names constants) {s : Node}
    (hs : s ∈ constants) : s.import? = none := by
  induction h with
  | nil => cases hs
  | cons hc _ ih =>
    rcases List.mem_cons.1 hs with rfl | hs
    · obtain ⟨l, trivia, -, rfl⟩ := hc
      rfl
    · exact ih hs

/-- Where nothing is injected, the only import of a plan is that of the other names. -/
theorem IsBuilt.mem_statements_iff (h : IsBuilt options d file plan)
    (hi : options.injectedImport file = none) {r : ImportStatement} :
    r.toNode ∈ plan.statements ↔ plan.residual = some r := by
  obtain ⟨constants, hstatements, hconstants⟩ := h.statements_eq hi
  have himport : r.toNode.import? = some r := rfl
  have hr : r.toNode ∉ constants := fun hmem => by
    rw [import?_of_mem_constants hconstants hmem] at himport
    cases himport
  rw [hstatements, List.mem_append, Option.mem_toList, Option.map_eq_some_iff]
  constructor
  · rintro (hmem | ⟨r', hr', heq⟩)
    · exact absurd hmem hr
    · have himport' : r'.toNode.import? = some r' := rfl
      rw [heq, himport] at himport'
      cases himport'
      exact hr'
  · intro hresidual
    exact .inr ⟨r, hresidual, rfl⟩

end Plan

end DeferredImports
