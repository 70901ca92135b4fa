import DeferredImports.Proofs.ResidualImport
import DeferredImports.Proofs.StatementPlans

/-! The framework's root identifier, of which every constant calls a member. Main statement: a
module that is changed imports a value of that name if and only if it did before, and not only by
bindings that are deferred. -/

namespace DeferredImports

namespace ImportStatement

/-- The default binding or a named one that is not for types has the local name. -/
def BindsExport (d : ImportStatement) (name : String) : Prop :=
  d.defaultBinding? = .ok (some name) ∨
    ∃ s, d.HasSpecifier s ∧ s.isTypeOnly = .ok false ∧ s.localName = .ok name

def BindsNamespace (d : ImportStatement) (name : String) : Prop :=
  d.namespaceName? = .ok (some name)

/-- The import is not for types, and one of its bindings that are not has the local name. -/
def BindsValue (d : ImportStatement) (name : String) : Prop :=
  d.isForTypes = false ∧ (d.BindsNamespace name ∨ d.BindsExport name)

theorem not_bindsValue_of_no_clause {d : ImportStatement} (h : d.hasClause = false)
    (name : String) : ¬ d.BindsValue name := by
  obtain ⟨hdefault, hnamed⟩ : d.defaultName = none ∧ d.namedBindings = none := by
    simpa [hasClause] using h
  simp [BindsValue, BindsNamespace, BindsExport, HasSpecifier, namespaceName?, defaultBinding?,
    specifiers, hdefault, hnamed]

/-- The import of the other names binds what the import binds, without the exports under the
names. -/
theorem IsRest.bindsValue_iff {d r : ImportStatement} {names : List String}
    (h : d.IsRest names r) (name : String) :
    r.BindsValue name ↔ d.BindsNamespace name ∨ d.BindsExport name ∧ name ∉ names := by
  obtain ⟨ss, hss, hmem⟩ := h.specifiers
  have hexport : r.BindsExport name ↔ d.BindsExport name ∧ name ∉ names := by
    rw [BindsExport, BindsExport, h.defaultBinding?, or_and_right]
    refine or_congr Iff.rfl ⟨?_, ?_⟩
    · rintro ⟨s, ⟨ss', hss', hs⟩, htype, hlocal⟩
      obtain rfl : ss' = ss := Except.ok.inj (hss'.symm.trans hss)
      obtain ⟨hs, here, hhere, hnot⟩ := (hmem s).1 hs
      obtain rfl : name = here := Except.ok.inj (hlocal.symm.trans hhere)
      exact ⟨⟨s, hs, htype, hlocal⟩, hnot⟩
    · rintro ⟨⟨s, hs, htype, hlocal⟩, hnot⟩
      exact ⟨s, ⟨ss, hss, (hmem s).2 ⟨hs, name, hlocal, hnot⟩⟩, htype, hlocal⟩
  rw [BindsValue, hexport, BindsNamespace, h.namespaceName?, ← BindsNamespace]
  exact ⟨And.right, fun hbinds => ⟨h.isForTypes, hbinds⟩⟩

end ImportStatement

/-- A top-level import binds a value to the name. -/
def Node.ImportsValue (m : Node) (name : String) : Prop :=
  ∃ ss, m.statements = .ok ss ∧ ∃ d : ImportStatement, d.toNode ∈ ss ∧ d.BindsValue name

/-- What is left of an import binds a value to the name if the import does so by a binding that is
not deferred. -/
theorem Plan.residualImport_binds {d : ImportStatement} {names : List String}
    {found : Option (ImportStatement × Nat)} (h : residualImport d names = .ok found)
    (name : String) :
    (∃ r, found.map Prod.fst = some r ∧ r.BindsValue name) ↔
      d.BindsNamespace name ∨ d.BindsExport name ∧ name ∉ names := by
  obtain ⟨r, hr, hfound | ⟨rfl, hclause⟩⟩ := isRest_of_residualImport h
  · simp [hfound, hr.bindsValue_iff]
  · rw [← hr.bindsValue_iff]
    simp [ImportStatement.not_bindsValue_of_no_clause hclause]

/-- The import binds a value to the name, and not only by a binding that its plan defers. -/
def ImportStatement.BindsBeside (d : ImportStatement) (plan : Option Plan) (name : String) : Prop :=
  d.isForTypes = false ∧
    (d.BindsNamespace name ∨
      d.BindsExport name ∧ ∀ made, plan = some made → name ∉ made.componentNames)

/-- A constant for the name that calls the lazy member of the framework's root with a function. -/
def Node.CallsRoot (framework : Framework) (name : String) (s : Node) : Prop :=
  ∃ l trivia, s = .constantNamed name (some (.call
    (.propertyAccess (.identifier framework.rootIdentifier) framework.lazyMember)
    [.arrow [] (some l)])) trivia

variable {ω σ : Type} {oracle : Oracle ω σ} {options : Options} {file : String}
  {I : Progress σ → Prop} {ss : List Node} {plans : List (Option Plan)}

/-- What stands in the place of a statement binds a value to the name if the statement does so by a
binding that is not deferred. -/
theorem IsPlanOf.bindsValue_iff {s : Node} {plan : Option Plan}
    (h : IsPlanOf oracle options file I s plan) (hi : options.injectedImport file = none)
    (name : String) :
    (∃ r : ImportStatement, r.toNode ∈ (plan.map Plan.statements).getD [s] ∧ r.BindsValue name) ↔
      ∃ d : ImportStatement, d.toNode = s ∧ d.BindsBeside plan name := by
  cases h with
  | kept => simp [ImportStatement.BindsValue, ImportStatement.BindsBeside]
  | @made d plan q q' hc _ hrun =>
    have htypes : d.isForTypes = false := by
      by_contra hne
      rw [isCandidate_of_forTypes_or_no_clause (.inl (by simpa using hne))] at hc
      cases hc
    simp only [ImportStatement.toNode_inj, exists_eq_left, Option.map_some, Option.getD_some]
    rcases Plan.ofImport_cases hrun with rfl | ⟨-, hbuilt⟩
    · simp [Plan.unchanged, ImportStatement.toNode_inj, ImportStatement.BindsValue,
        ImportStatement.BindsBeside]
    · obtain ⟨found, hfound, hresidual⟩ := hbuilt.residual
      simp only [hbuilt.mem_statements_iff hi, hresidual,
        Plan.residualImport_binds hfound name]
      simp [ImportStatement.BindsBeside, htypes]

/-- The planned statements bind a value to the name if a statement does so by a binding that is not
deferred. -/
theorem importsValue_planned_iff (hplans : List.Forall₂ (IsPlanOf oracle options file I) ss plans)
    (hi : options.injectedImport file = none) (trailing : Option String) (name : String) :
    (Node.sourceModule file (some (planned ss plans)) trailing).ImportsValue name ↔
      ∃ (d : ImportStatement) (plan : Option Plan), (d.toNode, plan) ∈ ss.zip plans ∧
        d.BindsBeside plan name := by
  have hstatements : (Node.sourceModule file (some (planned ss plans)) trailing).statements =
      .ok (planned ss plans) := rfl
  have hplan : ∀ {s plan}, (s, plan) ∈ ss.zip plans → IsPlanOf oracle options file I s plan :=
    fun hmem => (List.forall₂_iff_zip.1 hplans).2 hmem
  simp only [Node.ImportsValue, hstatements, Except.ok.injEq, exists_eq_left', mem_planned]
  constructor
  · rintro ⟨r, ⟨s, plan, hmem, hr⟩, hbinds⟩
    obtain ⟨d, rfl, hd⟩ := ((hplan hmem).bindsValue_iff hi name).1 ⟨r, hr, hbinds⟩
    exact ⟨d, plan, hmem, hd⟩
  · rintro ⟨d, plan, hmem, hd⟩
    obtain ⟨r, hr, hbinds⟩ := ((hplan hmem).bindsValue_iff hi name).2 ⟨d, rfl, hd⟩
    exact ⟨r, ⟨_, plan, hmem, hr⟩, hbinds⟩

/-- The names of a plan become constants that call a member of the root. -/
theorem callsRoot_of_isPlanOf {s : Node} {plan : Plan}
    (h : IsPlanOf oracle options file I s (some plan)) (hw : options.wrapper = none)
    (hi : options.injectedImport file = none) (hd : plan.deferred = true) :
    ∃ constants, plan.statements = constants ++ (plan.residual.map ImportStatement.toNode).toList ∧
      List.Forall₂ (Node.CallsRoot options.framework) plan.componentNames constants := by
  cases h with
  | made _ _ hrun =>
    rcases Plan.ofImport_cases hrun with rfl | ⟨-, hbuilt⟩
    · cases hd
    · obtain ⟨constants, hstatements, hconstants⟩ := hbuilt.statements_eq hi
      refine ⟨constants, hstatements, hconstants.imp ?_⟩
      rintro name constant ⟨l, trivia, -, rfl⟩
      refine ⟨l, trivia, ?_⟩
      rw [Options.wrapperExpression, hw]
      rfl

/-- Without a wrapper and an injected import of one's own, a changed module gets for each deferred
name a constant that calls a member of the root. It imports a value under the name of the root if
and only if it did so before by a namespace, or by another binding whose name is not deferred. -/
theorem transform_binds_root {trailing : Option String} {p p' : Progress σ} {changed : Node}
    (hw : options.wrapper = none) (hi : options.injectedImport file = none)
    (h : (transform oracle options (.sourceModule file (some ss) trailing)).runFrom p =
      (.ok (some changed), p')) :
    ∃ plans, (plansFor oracle options file ss).runFrom p = (.ok plans, p') ∧
      changed = .sourceModule file (some (planned ss plans)) trailing ∧
      (∀ s plan, (s, some plan) ∈ ss.zip plans → plan.deferred = true → ∃ constants,
        plan.statements = constants ++ (plan.residual.map ImportStatement.toNode).toList ∧
        List.Forall₂ (Node.CallsRoot options.framework) plan.componentNames constants) ∧
      (changed.ImportsValue options.framework.rootIdentifier ↔
        ∃ (d : ImportStatement) (plan : Option Plan), (d.toNode, plan) ∈ ss.zip plans ∧
          d.BindsBeside plan options.framework.rootIdentifier) := by
  rcases transform_cases h with ⟨-, hnone, -⟩ | ⟨-, plans, hrun, hchanged⟩
  · cases hnone
  split at hchanged
  · cases hchanged
    have hplans := forall₂_isPlanOf_true hrun
    exact ⟨plans, hrun, rfl,
      fun s plan hmem => callsRoot_of_isPlanOf ((List.forall₂_iff_zip.1 hplans).2 hmem) hw hi,
      importsValue_planned_iff hplans hi trailing _⟩
  · cases hchanged

/-- The namespace of the framework stays, and the two components are deferred by its member. -/
theorem transform_binds_root_panel :
    ({} : Options).wrapper = none ∧ ({} : Options).injectedImport "app.tsx" = none ∧
      ∃ changed q, (transform Oracle.panelOracle {} (.sourceModule "app.tsx"
          (some panelStatements) none)).runFrom ⟨[], ()⟩ = (.ok (some changed), q) ∧
        changed.ImportsValue "React" := by
  obtain ⟨plan, q, hplans, hrun⟩ := transform_runFrom_panelStatements
  obtain ⟨plans, hplans', -, -, hroot⟩ := transform_binds_root rfl rfl hrun
  obtain rfl : plans = [none, some plan, none, none] :=
    Except.ok.inj (Prod.mk.inj (hplans'.symm.trans hplans)).1
  have hreact : (⟨.doubleQuoted "react", none, some (.namespaceImport (.identifier "React")),
      some false, none, none⟩ : ImportStatement).BindsBeside none "React" := ⟨rfl, .inl rfl⟩
  exact ⟨rfl, rfl, _, q, hrun, hroot.2 ⟨_, none, List.mem_cons_self, hreact⟩⟩

/-- A module that imports the framework for its effects, and a component. -/
def bareStatements : List Node :=
  [(⟨.doubleQuoted "react", none, none, some false, none, none⟩ : ImportStatement).toNode,
    Plan.panelImport.toStatement.toNode]

/-- The import of the framework passes the gate without binding the root, of which the constants in
the changed module call a member. -/
theorem transform_bareStatements_unbound :
    ∃ changed q, (transform Oracle.panelOracle {} (.sourceModule "app.tsx"
        (some bareStatements) none)).runFrom ⟨[], ()⟩ = (.ok (some changed), q) ∧
      (∃ ss, changed.statements = .ok ss ∧ ∃ s ∈ ss, s.CallsRoot {} "Panel") ∧
      ¬ changed.ImportsValue "React" := by
  have heligible : (Node.sourceModule "app.tsx" (some bareStatements) none).isEligible
      ({} : Options).framework = .ok true := rfl
  obtain ⟨flags, hflags⟩ : ∃ flags, bareStatements.mapM Node.isCandidate = .ok flags := ⟨_, rfl⟩
  obtain ⟨plan, q, hplans, hdeferred, s, others, hstatements, hs⟩ : ∃ plan q,
      (plansFor Oracle.panelOracle {} "app.tsx" bareStatements).runFrom ⟨[], ()⟩ =
        (.ok [none, some plan], q) ∧ plan.deferred = true ∧
        ∃ s others, plan.statements = s :: others ∧ s.CallsRoot {} "Panel" :=
    ⟨_, _, rfl, rfl, _, _, rfl, _, _, rfl⟩
  have hrun : (transform Oracle.panelOracle {} (.sourceModule "app.tsx" (some bareStatements)
      none)).runFrom ⟨[], ()⟩ = _ :=
    transform_runFrom_deferred heligible (isCandidate_ok_of_mapM hflags) hplans
      (by simp [anyDeferred, hdeferred])
  refine ⟨_, q, hrun, ⟨_, rfl, s, ?_, hs⟩, ?_⟩
  · simp [planned, bareStatements, hstatements]
  rw [importsValue_planned_iff (forall₂_isPlanOf_true hplans) rfl]
  rintro ⟨d, plan', hmem, -, hbinds⟩
  simp only [bareStatements, List.zip_cons_cons, List.zip_nil_right, List.mem_cons, Prod.mk.injEq,
    ImportStatement.toNode_inj, List.not_mem_nil, or_false] at hmem
  rcases hmem with ⟨rfl, rfl⟩ | ⟨rfl, rfl⟩
  · simp [ImportStatement.BindsNamespace, ImportStatement.BindsExport,
      ImportStatement.namespaceName?, ImportStatement.defaultBinding?,
      ImportStatement.HasSpecifier, ImportStatement.specifiers] at hbinds
  · simp [ImportStatement.BindsNamespace, ImportStatement.BindsExport,
      ImportStatement.HasSpecifier, Plan.panelImport, PlainImport.namespaceName,
      PlainImport.namedBindings] at hbinds

end DeferredImports
