import DeferredImports.Proofs.Evaluation
import DeferredImports.Proofs.PlanShape
import Mathlib.Data.List.Nodup
import Mathlib.Data.List.Perm.Subperm

/-! What the names of an import stand for after it is deferred: every local name is bound once, by
a constant that loads the export that it stood for or by an import like the one before. -/

namespace DeferredImports

namespace Plan

variable {ω σ : Type} {oracle : Oracle ω σ} {Sound : σ → Prop}
  {Known : ExportedSymbol ω → Prop} {options : Options} {i : PlainImport}
  {file : String} {names : List String} {plan : Plan}

/-- A part of a list without repetitions holds the members that are in it, in their order. -/
theorem eq_filter_of_sublist {α : Type} [DecidableEq α] {xs ys : List α} (h : xs.Sublist ys)
    (hn : ys.Nodup) : xs = ys.filter (· ∈ xs) := by
  have hxs : xs.filter (· ∈ xs) = xs := List.filter_eq_self.2 (by simp)
  have hsub : xs.Sublist (ys.filter (· ∈ xs)) := by
    have := h.filter (· ∈ xs)
    rwa [hxs] at this
  have hback : ys.filter (· ∈ xs) ⊆ xs := by
    intro y hy
    simpa using (List.mem_filter.1 hy).2
  exact hsub.eq_of_length_le ((List.Nodup.filter _ hn).subperm hback).length_le

theorem build_componentNames {d : ImportStatement} {p p' : Progress σ}
    (h : (build options d names file : Session σ Plan).runFrom p = (.ok plan, p'))
    (hd : plan.deferred = true) : plan.componentNames = names := by
  unfold build at h
  obtain ⟨constants, _, -, h⟩ := Effect.runFrom_bind_eq_ok h
  obtain ⟨residual, _, -, h⟩ := Effect.runFrom_bind_eq_ok h
  dsimp only at h
  split at h
  · obtain ⟨_, _, -, h⟩ := Effect.runFrom_bind_eq_ok h
    obtain ⟨_, _, -, h⟩ := Effect.runFrom_bind_eq_ok h
    cases h
    cases hd
  · obtain ⟨injected, _, -, h⟩ := Effect.runFrom_bind_eq_ok h
    split at h
    · cases h
    · obtain ⟨_, _, -, h⟩ := Effect.runFrom_bind_eq_ok h
      obtain ⟨_, _, -, h⟩ := Effect.runFrom_bind_eq_ok h
      obtain ⟨_, _, -, h⟩ := Effect.runFrom_bind_eq_ok h
      cases h
      rfl

/-- The names that a plan defers are those that were classified as components. -/
theorem ofImport_componentNames {d : ImportStatement} {p p' : Progress σ}
    (h : (ofImport oracle options d file).runFrom p = (.ok plan, p')) (hd : plan.deferred = true) :
    ∃ q q', q.oracle = p.oracle ∧
      (componentsOf oracle options d file).runFrom q = (.ok plan.componentNames, q') := by
  unfold ofImport at h
  split at h
  · cases h
    cases hd
  obtain ⟨specifier, p₁, hs, hrun⟩ := Effect.runFrom_bind_eq_ok h
  rw [Effect.runFrom_ofExcept] at hs
  have hp₁ : p₁ = p := (Prod.mk.inj hs).2.symm
  obtain ⟨q, hq, hrun⟩ := Session.exists_runFrom_of_act_if hrun
  dsimp only at hrun
  split at hrun
  · obtain ⟨_, _, -, hrun⟩ := Effect.runFrom_bind_eq_ok hrun
    cases hrun
    cases hd
  · obtain ⟨names, q', hnames, hrun⟩ := Effect.runFrom_bind_eq_ok hrun
    refine ⟨q, q', by rw [hq, hp₁], ?_⟩
    split at hrun
    · cases hrun
      cases hd
    · rw [build_componentNames hrun hd]
      exact hnames

/-- A constant for a local name that wraps a function without parameters, which loads the export
that the name stands for. -/
def LoadsLazily (wrapper : Node) (specifier : String) (bound : String × String) (s : Node) : Prop :=
  ∃ l trivia, s = .constantNamed bound.1 (some (.call wrapper [.arrow [] (some l)])) trivia ∧
    l.LoadsAsDefault specifier bound.2

/-- The statements of a plan after the injected import. -/
def ownStatements (options : Options) (file : String) (plan : Plan) : List Node :=
  plan.statements.drop (options.injectedImport file).toList.length

/-- The plan's own statements bind the local names of the import again, each to what it stood for:
the deferred ones first, in their order, and then the import of the others. -/
structure PreservesNames (options : Options) (file : String) (i : PlainImport) (plan : Plan) :
    Prop where
  statements : ∃ constants,
    plan.ownStatements options file =
      constants ++ (plan.residual.map ImportStatement.toNode).toList ∧
    List.Forall₂ (LoadsLazily options.wrapperExpression i.specifier)
      (i.exportsBound.filter (·.1 ∈ plan.componentNames)) constants
  residual_isSome : plan.residual.isSome ↔ ∃ name ∈ i.localNames, name ∉ plan.componentNames
  residual_eq : ∀ d, plan.residual = some d →
    d.hasClause = true ∧
      ∃ r : PlainImport, d = r.toStatement ∧ r.literal = i.literal ∧ r.forTypes = i.forTypes ∧
        r.defaultName = i.defaultName.filter (· ∉ plan.componentNames) ∧
        r.namespaceName = i.namespaceName ∧
        r.namedBindings = i.namedBindings.filter (·.localName ∉ plan.componentNames)
  boundNames : ∃ names, (plan.ownStatements options file).mapM Node.boundNames = .ok names ∧
    names.flatten.Perm i.localNames

theorem hasClause_toStatement {i : PlainImport} (h : i.localNames ≠ []) :
    i.toStatement.hasClause = true := by
  rcases i with ⟨_, _, _ | _, _ | _, _, _, _⟩
  · exact absurd rfl h
  all_goals rfl

theorem Defers.ownStatements_eq (h : Defers options file i names plan) (hnames : names ≠ []) :
    ∃ constants, plan.ownStatements options file =
        constants ++ (plan.residual.map ImportStatement.toNode).toList ∧
      List.Forall₂ (IsLazyConstant options.wrapperExpression i.toStatement) names constants := by
  obtain ⟨constants, first, others, head, hconstants, hlist, hhead, hstatements⟩ := h.statements
  have hlazy : List.Forall₂ (IsLazyConstant options.wrapperExpression i.toStatement) names
      constants := hconstants.imp fun _ _ h => h.1
  have hresidual : (plan.residual.map ImportStatement.toNode).toList =
      ((i.rest? names).map fun r => r.toStatement.toNode).toList := by
    rw [h.residual]
    cases i.rest? names <;> rfl
  unfold ownStatements
  rw [hstatements, hresidual]
  cases hi : options.injectedImport file with
  | some injected =>
    -- the injected import takes the trivia, and the constants stand as they are
    rw [hi] at hlist
    have hothers := (List.cons.inj hlist).2
    exact ⟨constants, by simpa using hothers.symm, hlazy⟩
  | none =>
    rw [hi] at hlist
    cases hlazy with
    | nil => exact absurd rfl hnames
    | cons hc hcs =>
      obtain ⟨hfirst, hothers⟩ := List.cons.inj hlist
      obtain ⟨head', hhead', hc'⟩ := hc.withLeadingTrivia i.leadingTrivia
      have heq : head' = head := by
        rw [hfirst, hhead] at hhead'
        exact (Except.ok.inj hhead').symm
      subst heq
      exact ⟨head' :: _, by rw [← hothers]; rfl, .cons hc' hcs⟩

/-- A constant that wraps the loader of a name loads the export that the name is bound to. -/
theorem IsLazyConstant.loadsLazily (hn : i.localNames.Nodup) {wrapper : Node}
    {bound : String × String} (hb : bound ∈ i.exportsBound) {s : Node}
    (h : IsLazyConstant wrapper i.toStatement bound.1 s) :
    LoadsLazily wrapper i.specifier bound s := by
  obtain ⟨l, trivia, hl, rfl⟩ := h
  refine ⟨l, trivia, rfl, ?_⟩
  rcases loader_of_mem hn hb with ⟨hdefault, he⟩ | hselect
  · rw [hdefault] at hl
    cases hl
    rw [he]
    exact Node.loadsAsDefault_importCall i.specifier i.quote
  · rw [hselect] at hl
    cases hl
    exact Node.loadsAsDefault_selectExport i.specifier i.quote bound.2

theorem boundNames_constants {wrapper : Node} {constants : List Node}
    (h : List.Forall₂ (IsLazyConstant wrapper i.toStatement) names constants)
    {others : List Node} {ns : List (List String)} (ho : others.mapM Node.boundNames = .ok ns) :
    ∃ ms, (constants ++ others).mapM Node.boundNames = .ok (ms ++ ns) ∧ ms.flatten = names := by
  induction h with
  | nil => exact ⟨[], ho, rfl⟩
  | @cons name s names constants hs _ ih =>
    obtain ⟨ms, hms, hnames⟩ := ih
    obtain ⟨l, trivia, -, rfl⟩ := hs
    refine ⟨[name] :: ms, ?_, by rw [List.flatten_cons, hnames]; rfl⟩
    rw [List.cons_append, List.mapM_cons, hms]
    rfl

theorem Defers.preservesNames (hn : i.localNames.Nodup) (ht : i.forTypes = false)
    (hnames : names ≠ []) (hsub : names.Sublist i.deferrable)
    (h : Defers options file i names plan) : PreservesNames options file i plan := by
  obtain ⟨constants, hown, hlazy⟩ := h.ownStatements_eq hnames
  have hcomponents : plan.componentNames = names := h.componentNames
  have hexports : names.Sublist (i.exportsBound.map Prod.fst) := hsub.trans i.deferrable_sublist
  have hlocal : names.Sublist i.localNames := hexports.trans i.exportsBound_sublist
  have hnamespace : ∀ n, i.namespaceName = some n → n ∉ names := fun n hns hmem =>
    PlainImport.namespaceName_not_mem_exportsBound hn hns (hexports.subset hmem)
  have hothers := PlainImport.localNames_without hnamespace
  have hbound : names = (i.exportsBound.filter (·.1 ∈ names)).map Prod.fst := by
    have := eq_filter_of_sublist hexports (i.exportsBound_sublist.nodup hn)
    rw [List.filter_map] at this
    exact this
  constructor
  case statements =>
    refine ⟨constants, hown, ?_⟩
    rw [hcomponents]
    rw [hbound, List.forall₂_map_left_iff] at hlazy
    have hmem : ∀ b ∈ i.exportsBound.filter (·.1 ∈ names), b ∈ i.exportsBound := fun b hb =>
      List.mem_of_mem_filter hb
    have hboth := List.forall₂_and_left _ _ |>.2 ⟨hmem, hlazy⟩
    exact hboth.imp fun _ _ h => h.2.loadsLazily hn h.1
  case residual_isSome =>
    rw [h.residual, hcomponents, Option.isSome_map, PlainImport.rest?_isSome, hothers]
    simp [List.filter_eq_nil_iff]
  case residual_eq =>
    intro d hd
    rw [h.residual] at hd
    obtain ⟨r, hr, rfl⟩ := Option.map_eq_some_iff.1 hd
    obtain ⟨rfl, hne⟩ := PlainImport.eq_without_of_rest? hr
    refine ⟨hasClause_toStatement hne, i.without names, rfl, rfl, ht.symm, ?_⟩
    rw [hcomponents]
    exact ⟨rfl, i.namespaceName_without names, i.namedBindings_without names⟩
  case boundNames =>
    have hrest : ∃ ns, (plan.residual.map ImportStatement.toNode).toList.mapM Node.boundNames =
        .ok ns ∧ ns.flatten = i.localNames.filter (· ∉ names) := by
      rw [h.residual]
      cases hr : i.rest? names with
      | none => exact ⟨[], rfl, by rw [← hothers, PlainImport.localNames_of_rest?_eq_none hr]; rfl⟩
      | some r =>
        obtain ⟨rfl, -⟩ := PlainImport.eq_without_of_rest? hr
        refine ⟨[(i.without names).localNames], ?_, by rw [← hothers]; simp⟩
        simp only [Option.map_some, Option.toList_some, List.mapM_cons,
          PlainImport.boundNames_toNode]
        rfl
    obtain ⟨ns, hns, hflat⟩ := hrest
    obtain ⟨ms, hms, hnames'⟩ := boundNames_constants hlazy hns
    refine ⟨ms ++ ns, by rw [hown]; exact hms, ?_⟩
    have hdeferred : names = i.localNames.filter (· ∈ names) := eq_filter_of_sublist hlocal hn
    rw [List.flatten_append, hnames', hflat]
    have hsplit := List.filter_append_perm (fun n => decide (n ∈ names)) i.localNames
    rw [← hdeferred] at hsplit
    simpa using hsplit

/-- A plan is made for every import that is not for types only and does not bind a name twice, and
a plan that defers names keeps what every name stands for. -/
theorem ofImport_preservesNames (h : oracle.KeepsContract Sound Known) (options : Options)
    (i : PlainImport) (file : String) (hi : InjectsImports options file)
    (ht : i.forTypes = false) (hn : i.localNames.Nodup) {p : Progress σ} (hp : Sound p.oracle) :
    ∃ plan p', (ofImport oracle options i.toStatement file).runFrom p = (.ok plan, p') ∧
      (plan.deferred = true → PreservesNames options file i plan ∧
        ∃ q q', q.oracle = p.oracle ∧
          (componentsOf oracle options i.toStatement file).runFrom q =
            (.ok plan.componentNames, q')) := by
  obtain ⟨plan, p', hrun, -, hplan⟩ := ofImport_yields h options i file hi p hp
  refine ⟨plan, p', hrun, fun hd => ⟨?_, ofImport_componentNames hrun hd⟩⟩
  rcases hplan with rfl | ⟨names, hnames, hsub, hdefers⟩
  · cases hd
  · exact hdefers.preservesNames hn ht hnames hsub

def panelImport : PlainImport where
  specifier := "./panel"
  quote := none
  defaultName := some "Panel"
  clause := some (.named [⟨"width", none, false⟩, ⟨"Side", some "Side Panel", false⟩,
    ⟨"Props", none, true⟩])
  forTypes := false
  leadingTrivia := none
  sourceText := none

/-- Two of four names are deferred, one of them under a name of its own. -/
theorem ofImport_preservesNames_panel :
    ∃ plan p', (ofImport Oracle.panelOracle {} panelImport.toStatement "app.tsx").runFrom ⟨[], ()⟩ =
        (.ok plan, p') ∧ plan.componentNames = ["Panel", "Side"] ∧
      PreservesNames {} "app.tsx" panelImport plan := by
  obtain ⟨plan, p', hrun, hplan⟩ := ofImport_preservesNames Oracle.panelOracle_keepsContract {}
    panelImport "app.tsx" (fun n hn => by cases hn) rfl (by decide) (p := ⟨[], ()⟩) trivial
  have hcomputed : ((ofImport Oracle.panelOracle {} panelImport.toStatement "app.tsx").runFrom
      ⟨[], ()⟩).1.toOption.map (fun plan => (plan.deferred, plan.componentNames)) =
        some (true, ["Panel", "Side"]) := by
    decide
  rw [hrun] at hcomputed
  obtain ⟨hdeferred, hnames⟩ := Prod.mk.inj (Option.some.inj hcomputed)
  exact ⟨plan, p', hrun, hnames, (hplan hdeferred).1⟩

end Plan

end DeferredImports
