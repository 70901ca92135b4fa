import DeferredImports.Proofs.ResidualImport
import DeferredImports.Proofs.StatementPlans
import DeferredImports.Proofs.SteadyOracle

/-! Transforming a module twice. Main statement: where the oracle answers the same question the same
way, a transformed module stays the very module when it is transformed again. -/

namespace DeferredImports

namespace Plan

variable {ω σ : Type} {oracle : Oracle ω σ} {options : Options} {file : String}
  {Sound : σ → Prop} {isComponent : String → Session σ Bool} {d r : ImportStatement}
  {names : List String} {p p' : Progress σ}

/-- From every sound state the export is told to be no component. -/
abbrev Rejects (isComponent : String → Session σ Bool) (Sound : σ → Prop) (exported : String) :
    Prop :=
  (isComponent exported).Yields (Sound ·.oracle) (· = false)

/-- The binding is for types only, or it is bound to no component. -/
def RejectsBinding (isComponent : String → Session σ Bool) (Sound : σ → Prop) (s : Node) : Prop :=
  s.isTypeOnly = .ok true ∨
    s.isTypeOnly = .ok false ∧ ∃ exported, s.exportedName = .ok exported ∧
      Rejects isComponent Sound exported

section rejected

variable (hsteady : ∀ exported, (isComponent exported).Steady (Sound ·.oracle))
  (hp : Sound p.oracle)
include hsteady hp

/-- Where the default name was not classified, the default export is no component. -/
theorem rejects_of_defaultComponent
    (h : (defaultComponent isComponent d).runFrom p = (.ok names, p')) {n : Node} {name : String}
    (hd : d.defaultName = some n) (htext : n.text = .ok name) (hname : name ∉ names) :
    Rejects isComponent Sound defaultExport := by
  simp only [defaultComponent, hd, htext] at h
  obtain ⟨isOne, q, hone, h⟩ := Effect.runFrom_bind_eq_ok h
  cases isOne with
  | false => exact (hsteady defaultExport).yields hp hone
  | true =>
    cases h
    exact absurd (List.mem_singleton.2 rfl) hname

theorem rejectsBinding_of_namedComponent? {s : Node} {found : Option String} {name : String}
    (h : (namedComponent? isComponent s).runFrom p = (.ok found, p'))
    (hlocal : s.localName = .ok name) (hname : name ∉ found.toList) :
    RejectsBinding isComponent Sound s := by
  unfold namedComponent? at h
  obtain ⟨forTypes, htypes, h⟩ := Effect.ofExcept_bind_eq_ok h
  cases forTypes with
  | true => exact .inl htypes
  | false =>
    obtain ⟨exported, hexported, h⟩ := Effect.ofExcept_bind_eq_ok h
    obtain ⟨isOne, q, hone, h⟩ := Effect.runFrom_bind_eq_ok h
    cases isOne with
    | false => exact .inr ⟨htypes, exported, hexported, (hsteady exported).yields hp hone⟩
    | true =>
      rw [hlocal] at h
      cases h
      exact absurd (List.mem_singleton.2 rfl) hname

/-- A binding whose local name was not classified is bound to no component. -/
theorem rejectsBinding_of_namedComponents {ss : List Node}
    (h : (namedComponents isComponent ss).runFrom p = (.ok names, p')) {s : Node} (hs : s ∈ ss)
    {name : String} (hlocal : s.localName = .ok name) (hname : name ∉ names) :
    RejectsBinding isComponent Sound s := by
  induction ss generalizing p names with
  | nil => cases hs
  | cons t ss ih =>
    unfold namedComponents at h
    obtain ⟨here, q, hhere, h⟩ := Effect.runFrom_bind_eq_ok h
    obtain ⟨others, q', hothers, h⟩ := Effect.runFrom_bind_eq_ok h
    cases h
    rw [List.mem_append, not_or] at hname
    rcases List.mem_cons.1 hs with rfl | hs
    · exact rejectsBinding_of_namedComponent? hsteady hp hhere hlocal hname.1
    · exact ih ((namedComponent?_steady hsteady t).keeps hp hhere) hothers hs hname.2

end rejected

/-- Where the default export is no component, no default name is classified. -/
theorem defaultComponent_yields_nil
    (h : ∀ n, d.defaultName = some n → Rejects isComponent Sound defaultExport) :
    (defaultComponent isComponent d).Yields (Sound ·.oracle) (· = []) := by
  unfold defaultComponent
  split
  · exact .pure rfl
  · next n hd =>
    refine (h n hd).bind_eq ?_
    exact .pure rfl

/-- Where the bindings are bound to no components, no local name is classified. -/
theorem namedComponents_yields_nil {ss : List Node}
    (h : ∀ s ∈ ss, RejectsBinding isComponent Sound s) :
    (namedComponents isComponent ss).Yields (Sound ·.oracle) (· = []) := by
  induction ss with
  | nil => exact .pure rfl
  | cons s ss ih =>
    have hhere : (namedComponent? isComponent s).Yields (Sound ·.oracle) (· = none) := by
      unfold namedComponent?
      rcases h s List.mem_cons_self with htypes | ⟨htypes, exported, hexported, hrejects⟩
      · refine .ofExcept_bind htypes ?_
        exact .pure rfl
      · refine .ofExcept_bind htypes ?_
        refine .ofExcept_bind hexported ?_
        refine hrejects.bind_eq ?_
        exact .pure rfl
    unfold namedComponents
    refine hhere.bind_eq ?_
    refine (ih fun t ht => h t (List.mem_cons_of_mem s ht)).bind_eq ?_
    exact .pure rfl

/-- Nothing that was left over is classified as a component later. -/
theorem componentsOf_isRest (hsteady : oracle.IsSteady Sound) (hr : d.IsRest names r)
    (hp : Sound p.oracle)
    (h : (componentsOf oracle options d file).runFrom p = (.ok names, p')) :
    (componentsOf oracle options r file).Yields (Sound ·.oracle) (· = []) := by
  unfold componentsOf at h ⊢
  obtain ⟨specifier, hspecifier, h⟩ := Effect.ofExcept_bind_eq_ok h
  have hone := fun exported => hsteady.isComponent options.framework specifier exported file
  obtain ⟨default, q', hdefault, h⟩ := Effect.runFrom_bind_eq_ok h
  have hq' := (defaultComponent_steady hone d).keeps hp hdefault
  have hdefaults : default ⊆ names →
      (defaultComponent (oracle.isComponent options.framework specifier · file) r).Yields
        (Sound ·.oracle) (· = []) := by
    intro hsub
    apply defaultComponent_yields_nil
    intro n hn
    obtain ⟨hd, name, htext, hname⟩ := hr.defaultName n hn
    exact rejects_of_defaultComponent hone hp hdefault hd htext fun hmem => hname (hsub hmem)
  refine .ofExcept_bind (hr.specifier_eq.trans hspecifier) ?_
  by_cases honly : options.onlyDefaultExports
  · rw [if_pos honly] at h
    cases h
    refine (hdefaults (List.Subset.refl _)).bind_eq ?_
    rw [if_pos honly]
    exact .pure rfl
  · rw [if_neg honly] at h
    obtain ⟨ss, hss, h⟩ := Effect.ofExcept_bind_eq_ok h
    obtain ⟨named, q, hnamed, h⟩ := Effect.runFrom_bind_eq_ok h
    cases h
    refine (hdefaults (List.subset_append_left _ _)).bind_eq ?_
    rw [if_neg honly]
    obtain ⟨kept, hkept, hmem⟩ := hr.specifiers
    refine .ofExcept_bind hkept ?_
    have hnil : (namedComponents (oracle.isComponent options.framework specifier · file)
        kept).Yields (Sound ·.oracle) (· = []) := by
      apply namedComponents_yields_nil
      intro s hs
      obtain ⟨⟨ss', hss', hs⟩, name, hlocal, hname⟩ := (hmem s).1 hs
      obtain rfl : ss' = ss := Except.ok.inj (hss'.symm.trans hss)
      exact rejectsBinding_of_namedComponents hone hq' hnamed hs hlocal fun hin =>
        hname (List.mem_append_right _ hin)
    refine hnil.bind_eq ?_
    exact .pure rfl

/-- An import that binds no component is left alone. -/
theorem ofImport_yields_unchanged {specifier : String} (hs : d.specifier = .ok specifier)
    (h : (componentsOf oracle options d file).Yields (Sound ·.oracle) (· = [])) :
    (ofImport oracle options d file).Yields (Sound ·.oracle) (· = unchanged d) := by
  unfold ofImport
  split
  · exact .pure rfl
  refine .ofExcept_bind hs ?_
  apply Session.yields_act_if
  split
  · exact (Session.yields_log _).bind fun _ _ => .pure rfl
  refine h.bind_eq ?_
  exact .pure rfl

/-- The import of the names that were left over is left alone. -/
theorem residual_yields_unchanged (hsteady : oracle.IsSteady Sound) {plan : Plan}
    (hp : Sound p.oracle) (hrun : (ofImport oracle options d file).runFrom p = (.ok plan, p'))
    (hd : plan.deferred = true) (hbuilt : IsBuilt options d file plan)
    (hr : plan.residual = some r) :
    (ofImport oracle options r file).Yields (Sound ·.oracle) (· = unchanged r) := by
  obtain ⟨found, hfound, hresidual⟩ := hbuilt.residual
  rw [hresidual] at hr
  obtain ⟨rest, hrest, hrest' | ⟨rfl, -⟩⟩ := isRest_of_residualImport hfound
  · obtain rfl : rest = r := Option.some.inj (hrest'.symm.trans hr)
    obtain ⟨q, q', horacle, hcomponents⟩ := ofImport_componentNames hrun hd
    have hq : Sound q.oracle := by rwa [horacle]
    obtain ⟨specifier, hspecifier, -⟩ := Effect.ofExcept_bind_eq_ok hcomponents
    exact ofImport_yields_unchanged (hrest.specifier_eq.trans hspecifier)
      (componentsOf_isRest hsteady hrest hq hcomponents)
  · cases hr

end Plan

variable {ω σ : Type} {oracle : Oracle ω σ} {options : Options} {file : String}
  {Sound : σ → Prop} {ss : List Node} {plans : List (Option Plan)} {p p' : Progress σ}

/-- From every sound state the statement gets no plan that defers a name. -/
abbrev IsSettled (oracle : Oracle ω σ) (options : Options) (file : String) (Sound : σ → Prop)
    (s : Node) : Prop :=
  (planFor oracle options file s).Yields (Sound ·.oracle) (·.any Plan.deferred = false)

theorem isSettled_of_not_candidate {s : Node} (h : s.isCandidate ≠ .ok true) :
    IsSettled oracle options file Sound s := by
  unfold IsSettled planFor
  split
  · next hc => exact absurd hc h
  · exact .pure rfl

theorem isSettled_of_unchanged {d : ImportStatement}
    (h : (Plan.ofImport oracle options d file).Yields (Sound ·.oracle) (· = Plan.unchanged d)) :
    IsSettled oracle options file Sound d.toNode := by
  have himport : d.toNode.import? = some d := rfl
  unfold IsSettled planFor
  rw [himport]
  split
  · next _ hd _ =>
    cases hd
    refine h.bind_eq ?_
    exact .pure rfl
  · exact .pure rfl

/-- The statements of a plan are settled, and so is a statement without one. -/
theorem isSettled_of_isPlanOf (hsteady : oracle.IsSteady Sound)
    (hi : options.injectedImport file = none) {s : Node} {plan : Option Plan}
    (h : IsPlanOf oracle options file (Sound ·.oracle) s plan) :
    ∀ x ∈ (plan.map Plan.statements).getD [s], IsSettled oracle options file Sound x := by
  intro x hx
  cases h with
  | kept hnot =>
    obtain rfl := List.mem_singleton.1 hx
    exact isSettled_of_not_candidate hnot
  | @made d plan q q' hc hq hrun =>
    rcases Plan.ofImport_cases hrun with rfl | ⟨hdeferred, hbuilt⟩
    · obtain rfl := List.mem_singleton.1 hx
      exact isSettled_of_unchanged ((Plan.ofImport_steady hsteady options d file).yields hq hrun)
    · obtain ⟨constants, hstatements, hconstants⟩ := hbuilt.statements_eq hi
      have hx' : x ∈ constants ++ (plan.residual.map ImportStatement.toNode).toList := by
        rw [← hstatements]
        exact hx
      rcases List.mem_append.1 hx' with hx | hx
      · have himport := Plan.import?_of_mem_constants hconstants hx
        refine isSettled_of_not_candidate fun hc => ?_
        rw [Node.isCandidate_of_import?_eq_none himport] at hc
        cases hc
      · -- what was left over was not classified, and is not classified when it is asked for again
        obtain ⟨r, hr, rfl⟩ := Option.map_eq_some_iff.1 (Option.mem_toList.1 hx)
        exact isSettled_of_unchanged
          (Plan.residual_yields_unchanged hsteady hq hrun hdeferred hbuilt hr)

theorem isSettled_of_mem_planned (hsteady : oracle.IsSteady Sound)
    (hi : options.injectedImport file = none)
    (hplans : List.Forall₂ (IsPlanOf oracle options file (Sound ·.oracle)) ss plans) :
    ∀ x ∈ planned ss plans, IsSettled oracle options file Sound x := by
  intro x hx
  obtain ⟨s, plan, hmem, hx⟩ := mem_planned.1 hx
  exact isSettled_of_isPlanOf hsteady hi ((List.forall₂_iff_zip.1 hplans).2 hmem) x hx

theorem plansFor_yields_of_isSettled (h : ∀ s ∈ ss, IsSettled oracle options file Sound s) :
    (plansFor oracle options file ss).Yields (Sound ·.oracle) (anyDeferred · = false) :=
  (plansFor_yields h).mono fun _ hplans => List.any_eq_false.2 fun plan hplan => by
    simp [hplans plan hplan]

/-- A module whose statements are settled does not change. -/
theorem eq_none_of_isSettled (h : ∀ s ∈ ss, IsSettled oracle options file Sound s)
    {trailing : Option String} (hp : Sound p.oracle) {changed : Option Node}
    (hrun : (transform oracle options (.sourceModule file (some ss) trailing)).runFrom p =
      (.ok changed, p')) : changed = none := by
  rcases transform_cases hrun with ⟨-, rfl, -⟩ | ⟨-, plans, hplans, rfl⟩
  · rfl
  · obtain ⟨plans', q, hplans', -, hany⟩ := plansFor_yields_of_isSettled h p hp
    obtain rfl : plans = plans' := Except.ok.inj (Prod.mk.inj (hplans.symm.trans hplans')).1
    rw [hany]
    rfl

/-- The import of the other names of a plain import is plain. -/
theorem importsPlain_planned (h : ImportsPlain ss) (hi : options.injectedImport file = none)
    (hplans : List.Forall₂ (IsPlanOf oracle options file (Sound ·.oracle)) ss plans) :
    ImportsPlain (planned ss plans) := by
  intro r hr
  obtain ⟨s, plan, hmem, hr⟩ := mem_planned.1 hr
  have hs := (List.of_mem_zip hmem).1
  cases (List.forall₂_iff_zip.1 hplans).2 hmem with
  | kept => exact h r (by rwa [List.mem_singleton.1 hr])
  | @made d plan q q' hc hq hrun =>
    obtain ⟨i, rfl⟩ := h d hs
    rcases Plan.ofImport_cases hrun with rfl | ⟨-, hbuilt⟩
    · exact ⟨i, ImportStatement.toNode_inj.1 (List.mem_singleton.1 hr)⟩
    · obtain ⟨found, hfound, hresidual⟩ := hbuilt.residual
      have hr' : plan.residual = some r := (hbuilt.mem_statements_iff hi).1 hr
      rw [Plan.residualImport_toStatement] at hfound
      cases hfound
      rw [hresidual, Option.map_map, Option.map_eq_some_iff] at hr'
      obtain ⟨j, -, rfl⟩ := hr'
      exact ⟨j, rfl⟩

theorem ImportsPlain.plansFor_yields {Known : ExportedSymbol ω → Prop} (h : ImportsPlain ss)
    (hcontract : oracle.KeepsContract Sound Known) (hi : options.injectedImport file = none) :
    (plansFor oracle options file ss).Yields (Sound ·.oracle) fun _ => True := by
  have hinjects : Plan.InjectsImports options file := fun n hn => by
    rw [hi] at hn
    cases hn
  exact ((h.plansFor_yieldsOr hcontract).yields hinjects.not_misfit).mono fun _ _ => trivial

/-- Where the oracle answers the same question the same way and no import is injected, a module that
was transformed does not change when it is transformed again, from whichever state. If its imports
have the parts that they should have, it is the very module that comes out then, and under the
oracle's contract the first transformation ends with an answer, too. -/
theorem transform_transform (hsteady : oracle.IsSteady Sound)
    (hi : options.injectedImport file = none) (trailing : Option String) (hp : Sound p.oracle) :
    (∀ changed p', (transform oracle options (.sourceModule file (some ss) trailing)).runFrom p =
        (.ok changed, p') →
      Sound p'.oracle ∧ ∀ q, Sound q.oracle →
        (∀ again q', (transform oracle options
            (changed.getD (.sourceModule file (some ss) trailing))).runFrom q = (.ok again, q') →
          again = none) ∧
        (ImportsPlain ss → ∃ q', (transform oracle options
            (changed.getD (.sourceModule file (some ss) trailing))).runFrom q = (.ok none, q'))) ∧
    (ImportsPlain ss → ∀ Known, oracle.KeepsContract Sound Known → ∃ changed p',
      (transform oracle options (.sourceModule file (some ss) trailing)).runFrom p =
        (.ok changed, p')) := by
  constructor
  · intro changed p' h
    rcases transform_cases h with ⟨he, rfl, horacle⟩ | ⟨-, plans, hrun, rfl⟩
    · refine ⟨by rwa [horacle], fun q _ => ?_⟩
      have hskipped : (transform oracle options (.sourceModule file (some ss) trailing)).runFrom q =
          _ := transform_runFrom_skipped he q
      refine ⟨fun again q' hagain => ?_, fun _ => ⟨_, hskipped⟩⟩
      exact Except.ok.inj (Prod.mk.inj (hagain.symm.trans hskipped)).1
    · have hI : ∀ d (q : Progress σ), Sound q.oracle →
          Sound ((Plan.ofImport oracle options d file).runFrom q).2.oracle :=
        fun d q hq => (Plan.ofImport_steady hsteady options d file).keeps hq rfl
      obtain ⟨hplans, hp'⟩ := forall₂_isPlanOf hI hp hrun
      have hsettled := isSettled_of_mem_planned hsteady hi hplans
      rw [getD_eq_planned hplans]
      refine ⟨hp', fun q hq => ⟨fun again q' => eq_none_of_isSettled hsettled hq, fun hplain => ?_⟩⟩
      obtain ⟨again, q', hagain, -⟩ := (importsPlain_planned hplain hi hplans).transform_yields
        ((plansFor_yields_of_isSettled hsettled).mono fun _ _ => trivial) trailing q hq
      obtain rfl := eq_none_of_isSettled hsettled hq hagain
      exact ⟨q', hagain⟩
  · intro hplain Known hcontract
    obtain ⟨changed, p', hrun, -⟩ :=
      hplain.transform_yields (hplain.plansFor_yields hcontract hi) trailing p hp
    exact ⟨changed, p', hrun⟩

theorem importsPlain_panelStatements : ImportsPlain panelStatements := by
  intro d hd
  simp only [panelStatements, List.mem_cons, List.not_mem_nil, or_false,
    ImportStatement.toNode_inj] at hd
  rcases hd with hd | rfl | rfl | hd
  · have hreact : d.toNode = (⟨"react", some "\"", none, some (.namespaceAs "React"), false, none,
        none⟩ : PlainImport).toStatement.toNode := hd
    exact ⟨_, ImportStatement.toNode_inj.1 hreact⟩
  · exact ⟨_, rfl⟩
  · exact ⟨{ Plan.panelImport with forTypes := true }, rfl⟩
  · cases hd

/-- What is left of the import of the components is looked at again, and stays. -/
theorem transform_transform_panel :
    Oracle.panelOracle.IsSteady (fun _ => True) ∧
      ({} : Options).injectedImport "app.tsx" = none ∧ ImportsPlain panelStatements ∧
      ∃ changed p' q', (transform Oracle.panelOracle {} (.sourceModule "app.tsx"
          (some panelStatements) none)).runFrom ⟨[], ()⟩ = (.ok (some changed), p') ∧
        (transform Oracle.panelOracle {} changed).runFrom p' = (.ok none, q') := by
  have hinjected : ({} : Options).injectedImport "app.tsx" = none := rfl
  obtain ⟨plan, p', -, hrun⟩ := transform_runFrom_panelStatements
  obtain ⟨htwice, -⟩ := transform_transform Oracle.panelOracle_isSteady hinjected none
    (trivial : (fun _ => True) (⟨[], ()⟩ : Progress Unit).oracle)
  obtain ⟨hsound, hagain⟩ := htwice _ p' hrun
  obtain ⟨q', hrun'⟩ := (hagain p' hsound).2 importsPlain_panelStatements
  exact ⟨Oracle.panelOracle_isSteady, hinjected, importsPlain_panelStatements, _, p', q', hrun,
    hrun'⟩

end DeferredImports
