import DeferredImports.Proofs.BuiltPlan
import DeferredImports.Proofs.FrameworkGate
import DeferredImports.Proofs.Substitution

/-! Transforming a module statement by statement. Main statement: a module of the framework gets,
for each candidate among its statements, the statements of the candidate's plan, and keeps every
other statement; all else in it stays, and it stays the very module if no plan defers a name. -/

namespace DeferredImports

variable {ω σ : Type}

theorem ImportStatement.toNode_inj {d e : ImportStatement} : d.toNode = e.toNode ↔ d = e := by
  refine ⟨fun h => ?_, congrArg _⟩
  have hd : d.toNode.import? = some d := rfl
  rw [h] at hd
  exact (Option.some.inj hd).symm

/-- The plan for a statement of a module, if it is a candidate. -/
def planFor (oracle : Oracle ω σ) (options : Options) (file : String) (s : Node) :
    Session σ (Option Plan) :=
  match s.import?, s.isCandidate with
  | some d, .ok true => do return some (← Plan.ofImport oracle options d file)
  | _, _ => pure none

/-- The plans for some statements, one after the other. -/
def plansFor (oracle : Oracle ω σ) (options : Options) (file : String) :
    List Node → Session σ (List (Option Plan))
  | [] => pure []
  | s :: ss => do
    let plan ← planFor oracle options file s
    let plans ← plansFor oracle options file ss
    return plan :: plans

/-- The statements in place of some: those of the plan for a statement that has one, and else the
statement itself. -/
def planned (ss : List Node) (plans : List (Option Plan)) : List Node :=
  (List.zipWith (fun s plan => (plan.map Plan.statements).getD [s]) ss plans).flatten

theorem planned_cons (s : Node) (ss : List Node) (plan : Option Plan) (plans : List (Option Plan)) :
    planned (s :: ss) (plan :: plans) =
      (plan.map Plan.statements).getD [s] ++ planned ss plans := rfl

theorem mem_planned {ss : List Node} {plans : List (Option Plan)} {x : Node} :
    x ∈ planned ss plans ↔ ∃ s plan, (s, plan) ∈ ss.zip plans ∧
      x ∈ (plan.map Plan.statements).getD [s] := by
  simp only [planned, List.mem_flatten, ← List.map_uncurry_zip_eq_zipWith, List.mem_map,
    Prod.exists, Function.uncurry_apply_pair]
  constructor
  · rintro ⟨_, ⟨s, plan, hmem, rfl⟩, hx⟩
    exact ⟨s, plan, hmem, hx⟩
  · rintro ⟨s, plan, hmem, hx⟩
    exact ⟨_, ⟨s, plan, hmem, rfl⟩, hx⟩

/-- Whether some plan defers a name. -/
def anyDeferred (plans : List (Option Plan)) : Bool := plans.any (·.any Plan.deferred)

section plans

variable {oracle : Oracle ω σ} {options : Options} {file : String} {p p' : Progress σ}

/-- A statement is answered by the statements of its plan, if the plan defers a name. -/
theorem answerTo_runFrom {s : Node} (hs : ∃ b, s.isCandidate = .ok b) (p : Progress σ) :
    (answerTo oracle options file s).runFrom p =
      ((planFor oracle options file s).runFrom p).map
        (Except.map (Option.bind · Plan.replacement)) id := by
  obtain ⟨candidate, hs⟩ := hs
  rw [answerTo, planFor, hs, Effect.runFrom_bind_of_ok (Effect.runFrom_ofExcept _ _)]
  cases s.import? with
  | none => rfl
  | some d =>
    cases candidate with
    | false => rfl
    | true =>
      dsimp only
      rw [Effect.runFrom_bind, Effect.runFrom_bind]
      rcases (Plan.ofImport oracle options d file).runFrom p with ⟨_ | _, _⟩ <;> rfl

theorem answersTo_runFrom {ss : List Node} (hss : ∀ s ∈ ss, ∃ b, s.isCandidate = .ok b)
    (p : Progress σ) :
    (answersTo oracle options file ss).runFrom p =
      ((plansFor oracle options file ss).runFrom p).map
        (Except.map (List.map (Option.bind · Plan.replacement))) id := by
  induction ss generalizing p with
  | nil => rfl
  | cons s ss ih =>
    rw [answersTo, plansFor, Effect.runFrom_bind, Effect.runFrom_bind,
      answerTo_runFrom (hss s List.mem_cons_self)]
    rcases (planFor oracle options file s).runFrom p with ⟨_ | plan, q⟩
    · rfl
    · have hrest := ih (fun t ht => hss t (List.mem_cons_of_mem s ht)) q
      dsimp only [Prod.map, id, Except.map]
      rw [Effect.runFrom_bind, Effect.runFrom_bind, hrest]
      rcases (plansFor oracle options file ss).runFrom q with ⟨_ | _, _⟩ <;> rfl

/-- Where a plan comes from: a statement without one is no candidate, and in a state with the
invariant the plan was made for an import. -/
inductive IsPlanOf (oracle : Oracle ω σ) (options : Options) (file : String)
    (I : Progress σ → Prop) : Node → Option Plan → Prop
  | kept {s : Node} (h : s.isCandidate ≠ .ok true) : IsPlanOf oracle options file I s none
  | made {d : ImportStatement} {plan : Plan} {q q' : Progress σ}
      (hc : d.toNode.isCandidate = .ok true) (hq : I q)
      (hrun : (Plan.ofImport oracle options d file).runFrom q = (.ok plan, q')) :
      IsPlanOf oracle options file I d.toNode (some plan)

variable {I : Progress σ → Prop}

theorem isPlanOf_planFor {s : Node} {plan : Option Plan} (hp : I p)
    (h : (planFor oracle options file s).runFrom p = (.ok plan, p')) :
    IsPlanOf oracle options file I s plan := by
  unfold planFor at h
  split at h
  · next d himport hc =>
    obtain ⟨made, q, hrun, h⟩ := Effect.runFrom_bind_eq_ok h
    cases h
    rw [Node.import?_eq_some.1 himport] at hc ⊢
    exact .made hc hp hrun
  · next hnot =>
    cases h
    refine .kept fun hc => ?_
    cases himport : s.import? with
    | none =>
      rw [Node.isCandidate_of_import?_eq_none himport] at hc
      cases hc
    | some d => exact hnot d himport hc

/-- Each statement has the plan that is made for it, one after the other. -/
theorem forall₂_isPlanOf (hI : ∀ d q, I q → I ((Plan.ofImport oracle options d file).runFrom q).2)
    {ss : List Node} {plans : List (Option Plan)} (hp : I p)
    (h : (plansFor oracle options file ss).runFrom p = (.ok plans, p')) :
    List.Forall₂ (IsPlanOf oracle options file I) ss plans ∧ I p' := by
  induction ss generalizing p plans with
  | nil =>
    cases h
    exact ⟨.nil, hp⟩
  | cons s ss ih =>
    obtain ⟨plan, q, hplan, h⟩ := Effect.runFrom_bind_eq_ok h
    obtain ⟨others, q', hothers, h⟩ := Effect.runFrom_bind_eq_ok h
    cases h
    have hq : I q := by
      have hstate : I ((planFor oracle options file s).runFrom p).2 := by
        unfold planFor
        split
        · next d _ _ =>
          have hmade := hI d p hp
          rw [Effect.runFrom_bind]
          rcases hrun : (Plan.ofImport oracle options d file).runFrom p with ⟨_ | _, r⟩ <;>
            · rw [hrun] at hmade
              exact hmade
        · exact hp
      rw [hplan] at hstate
      exact hstate
    obtain ⟨hall, hq'⟩ := ih hq hothers
    exact ⟨.cons (isPlanOf_planFor hp hplan) hall, hq'⟩

theorem forall₂_isPlanOf_true {ss : List Node} {plans : List (Option Plan)}
    (h : (plansFor oracle options file ss).runFrom p = (.ok plans, p')) :
    List.Forall₂ (IsPlanOf oracle options file fun _ => True) ss plans :=
  (forall₂_isPlanOf (fun _ _ _ => trivial) trivial h).1

/-- The statements that are put in place of some by the answers are those of the plans. -/
theorem spliced_eq_planned {ss : List Node} {plans : List (Option Plan)}
    (h : List.Forall₂ (IsPlanOf oracle options file I) ss plans) :
    Node.spliced ss (plans.map (Option.bind · Plan.replacement)) = planned ss plans := by
  induction h with
  | nil => rfl
  | cons hplan _ ih =>
    rw [Node.spliced] at ih ⊢
    rw [planned] at ih ⊢
    rw [List.map_cons, List.zipWith_cons_cons, List.zipWith_cons_cons, List.flatten_cons,
      List.flatten_cons, ih]
    cases hplan with
    | kept => rfl
    | made _ _ hrun =>
      rcases Plan.ofImport_cases hrun with rfl | ⟨hdeferred, -⟩
      · rfl
      · simp [Plan.replacement, hdeferred]

theorem any_replacement (plans : List (Option Plan)) :
    (plans.map (Option.bind · Plan.replacement)).any Option.isSome = anyDeferred plans := by
  rw [anyDeferred, List.any_map]
  congr 1
  funext plan
  cases plan with
  | none => rfl
  | some plan => cases hd : plan.deferred <;> simp [Plan.replacement, hd]

/-- A module that may be transformed gets the statements of the plans for its own. -/
theorem transform_runFrom_plans {ss : List Node} {trailing : Option String}
    (he : (Node.sourceModule file (some ss) trailing).isEligible options.framework = .ok true)
    (hc : ∀ s ∈ ss, ∃ b, s.isCandidate = .ok b) (p : Progress σ) :
    (transform oracle options (.sourceModule file (some ss) trailing)).runFrom p =
      (do
        let plans ← plansFor oracle options file ss
        return if anyDeferred plans then
            some (.sourceModule file (some (planned ss plans)) trailing)
          else none : Session σ (Option Node)).runFrom p := by
  obtain ⟨candidates, hcandidates⟩ := Node.candidatesFrom_ok hc 0
  rw [transform_runFrom he hcandidates, Effect.runFrom_bind, Effect.runFrom_bind,
    answersTo_runFrom hc]
  rcases hrun : (plansFor oracle options file ss).runFrom p with ⟨_ | plans, q⟩
  · rfl
  · dsimp only [Prod.map, id, Except.map]
    rw [any_replacement, substituted, spliced_eq_planned (forall₂_isPlanOf_true hrun)]

theorem transform_runFrom_deferred {ss : List Node} {trailing : Option String}
    {plans : List (Option Plan)}
    (he : (Node.sourceModule file (some ss) trailing).isEligible options.framework = .ok true)
    (hc : ∀ s ∈ ss, ∃ b, s.isCandidate = .ok b)
    (hplans : (plansFor oracle options file ss).runFrom p = (.ok plans, p'))
    (hany : anyDeferred plans = true) :
    (transform oracle options (.sourceModule file (some ss) trailing)).runFrom p =
      (.ok (some (.sourceModule file (some (planned ss plans)) trailing)), p') := by
  rw [transform_runFrom_plans he hc, Effect.runFrom_bind_of_ok hplans, hany]
  rfl

theorem planned_eq_self {ss : List Node} {plans : List (Option Plan)}
    (h : List.Forall₂ (IsPlanOf oracle options file I) ss plans)
    (hany : anyDeferred plans = false) : planned ss plans = ss := by
  rw [← spliced_eq_planned h]
  refine spliced_eq_self ?_ ((any_replacement plans).trans hany)
  rw [List.length_map, h.length_eq]

/-- The module after a transformation has the planned statements, changed or not. -/
theorem getD_eq_planned {ss : List Node} {plans : List (Option Plan)}
    (hplans : List.Forall₂ (IsPlanOf oracle options file I) ss plans) (trailing : Option String) :
    (if anyDeferred plans then some (Node.sourceModule file (some (planned ss plans)) trailing)
      else none).getD (.sourceModule file (some ss) trailing) =
      .sourceModule file (some (planned ss plans)) trailing := by
  cases hany : anyDeferred plans with
  | true => rfl
  | false =>
    rw [planned_eq_self hplans hany]
    rfl

/-- Candidates are told in order, and a statement that cannot be told fails as such. -/
theorem candidatesFrom_error {ss : List Node} {e : Failure}
    (h : ss.mapM Node.isCandidate = .error e) (i : Nat) :
    Node.candidatesFrom i ss = .error e := by
  induction ss generalizing i with
  | nil => cases h
  | cons s ss ih =>
    rw [List.mapM_cons] at h
    rw [Node.candidatesFrom]
    cases hs : s.isCandidate with
    | error e' =>
      rw [hs] at h
      cases h
      rfl
    | ok here =>
      rw [hs] at h
      cases hss : ss.mapM Node.isCandidate with
      | error e' =>
        rw [hss] at h
        cases h
        simp only [bind, Except.bind, ih hss]
      | ok flags =>
        rw [hss] at h
        cases h

theorem isCandidate_ok_of_mapM {ss : List Node} {flags : List Bool}
    (h : ss.mapM Node.isCandidate = .ok flags) : ∀ s ∈ ss, ∃ b, s.isCandidate = .ok b := by
  induction ss generalizing flags with
  | nil => exact fun s hs => nomatch hs
  | cons s ss ih =>
    rw [List.mapM_cons] at h
    obtain ⟨here, hs, h⟩ := exists_of_bind_eq_ok h
    obtain ⟨others, hss, -⟩ := exists_of_bind_eq_ok h
    exact List.forall_mem_cons.2 ⟨⟨here, hs⟩, ih hss⟩

theorem transform_runFrom_skipped {ss : List Node} {trailing : Option String}
    (he : (Node.sourceModule file (some ss) trailing).isEligible options.framework = .ok false)
    (p : Progress σ) :
    (transform oracle options (.sourceModule file (some ss) trailing)).runFrom p =
      (.ok none, { p with trace := p.trace ++ [.logged (.moduleSkipped file)] }) := by
  rw [transform, he]
  rfl

theorem transform_runFrom_eligible {ss : List Node} {trailing : Option String}
    (he : (Node.sourceModule file (some ss) trailing).isEligible options.framework = .ok true)
    (p : Progress σ) :
    (transform oracle options (.sourceModule file (some ss) trailing)).runFrom p =
      (do
        let _ ← Effect.ofExcept (ss.mapM Node.isCandidate)
        let plans ← plansFor oracle options file ss
        return if anyDeferred plans then
            some (.sourceModule file (some (planned ss plans)) trailing)
          else none : Session σ (Option Node)).runFrom p := by
  cases hc : ss.mapM Node.isCandidate with
  | ok flags => exact transform_runFrom_plans he (isCandidate_ok_of_mapM hc) p
  | error e =>
    have hcandidates : (Node.sourceModule file (some ss) trailing).candidates = .error e :=
      candidatesFrom_error hc 0
    rw [transform, he, hcandidates]
    rfl

/-- A transformation that ends with an answer has skipped the module, or has made plans for its
statements. -/
theorem transform_cases {ss : List Node} {trailing : Option String} {changed : Option Node}
    (h : (transform oracle options (.sourceModule file (some ss) trailing)).runFrom p =
      (.ok changed, p')) :
    (Node.sourceModule file (some ss) trailing).isEligible options.framework = .ok false ∧
        changed = none ∧ p'.oracle = p.oracle ∨
      (∀ s ∈ ss, ∃ b, s.isCandidate = .ok b) ∧ ∃ plans,
        (plansFor oracle options file ss).runFrom p = (.ok plans, p') ∧
        changed = if anyDeferred plans then
            some (.sourceModule file (some (planned ss plans)) trailing)
          else none := by
  cases he : (Node.sourceModule file (some ss) trailing).isEligible options.framework with
  | error e =>
    rw [transform, he] at h
    cases h
  | ok eligible =>
    cases eligible with
    | false =>
      rw [transform_runFrom_skipped he] at h
      cases h
      exact .inl ⟨rfl, rfl, rfl⟩
    | true =>
      rw [transform_runFrom_eligible he] at h
      obtain ⟨flags, hmapM, h⟩ := Effect.ofExcept_bind_eq_ok h
      obtain ⟨plans, q', hplans, h⟩ := Effect.runFrom_bind_eq_ok h
      cases h
      exact .inr ⟨isCandidate_ok_of_mapM hmapM, plans, hplans, rfl⟩

theorem isCandidate_of_forTypes_or_no_clause {d : ImportStatement}
    (h : d.isForTypes = true ∨ d.hasClause = false) : d.toNode.isCandidate = .ok false := by
  have himport : d.toNode.isCandidate = d.isCandidate := rfl
  rw [himport, ImportStatement.isCandidate]
  rcases h with h | h <;> simp [h, pure, Except.pure]

/-- A declaration file and a module without an import of the framework stay the very modules. Every
other module whose imports can be read gets the statements of the plans for its candidates, which
are made one after the other, and keeps its other statements, its name and the text after them; it
stays the very module if and only if no plan defers a name. Imports for types and imports without a
clause are no candidates. -/
theorem transform_substitutes_plans (oracle : Oracle ω σ) (options : Options) (file : String)
    (ss : List Node) (trailing : Option String) (p : Progress σ) :
    (Text.ends ".d.ts" file = true ∨ ImportsNone options.framework ss →
      (transform oracle options (.sourceModule file (some ss) trailing)).runFrom p =
        (.ok none, { p with trace := p.trace ++ [.logged (.moduleSkipped file)] })) ∧
    (Text.ends ".d.ts" file = false → ImportsFramework options.framework ss →
      (transform oracle options (.sourceModule file (some ss) trailing)).runFrom p =
        (do
          let _ ← Effect.ofExcept (ss.mapM Node.isCandidate)
          let plans ← plansFor oracle options file ss
          return if anyDeferred plans then
              some (.sourceModule file (some (planned ss plans)) trailing)
            else none : Session σ (Option Node)).runFrom p) ∧
    (Text.ends ".d.ts" file = false → ¬ ImportsNone options.framework ss →
      ¬ ImportsFramework options.framework ss → ∃ e,
        (transform oracle options (.sourceModule file (some ss) trailing)).runFrom p =
          (.error e, p)) ∧
    (∀ plans q, (plansFor oracle options file ss).runFrom p = (.ok plans, q) →
      anyDeferred plans = false → planned ss plans = ss) ∧
    ∀ d : ImportStatement, d.isForTypes = true ∨ d.hasClause = false →
      d.toNode.isCandidate = .ok false := by
  refine ⟨fun h => transform_runFrom_skipped (isEligible_of_importsNone h) p, ?_, ?_, ?_,
    fun d => isCandidate_of_forTypes_or_no_clause⟩
  · intro hd h
    exact transform_runFrom_eligible (isEligible_of_importsFramework hd h) p
  · intro hd hnone hframework
    obtain ⟨e, he⟩ : ∃ e, Node.isEligible options.framework
        (.sourceModule file (some ss) trailing) = .error e :=
      isEligible_error hd hnone hframework
    refine ⟨e, ?_⟩
    rw [transform, he]
    rfl
  · intro plans q hrun hany
    exact planned_eq_self (forall₂_isPlanOf_true hrun) hany

end plans

section plain

variable {oracle : Oracle ω σ} {options : Options} {file : String} {ss : List Node}
  {Sound : σ → Prop} {Known : ExportedSymbol ω → Prop} {E : Failure → Prop}

/-- What all plans yield, they yield one after the other. -/
theorem plansFor_yieldsOr {P : Option Plan → Prop}
    (h : ∀ s ∈ ss, (planFor oracle options file s).YieldsOr (Sound ·.oracle) P E) :
    (plansFor oracle options file ss).YieldsOr (Sound ·.oracle) (∀ plan ∈ ·, P plan) E := by
  induction ss with
  | nil => exact .pure fun _ hplan => nomatch hplan
  | cons s ss ih =>
    rw [plansFor]
    refine (h s List.mem_cons_self).bind fun plan hplan => ?_
    refine (ih fun t ht => h t (List.mem_cons_of_mem s ht)).bind fun others hothers => ?_
    exact .pure (List.forall_mem_cons.2 ⟨hplan, hothers⟩)

theorem plansFor_yields {P : Option Plan → Prop}
    (h : ∀ s ∈ ss, (planFor oracle options file s).Yields (Sound ·.oracle) P) :
    (plansFor oracle options file ss).Yields (Sound ·.oracle) (∀ plan ∈ ·, P plan) :=
  (plansFor_yieldsOr fun s hs => (h s hs).yieldsOr fun _ => False).yields fun _ => id

/-- The import statements among some statements have the parts that they should have. -/
def ImportsPlain (ss : List Node) : Prop :=
  ∀ d : ImportStatement, d.toNode ∈ ss → ∃ i : PlainImport, d = i.toStatement

theorem ImportsPlain.isCandidate_ok (h : ImportsPlain ss) :
    ∀ s ∈ ss, ∃ b, s.isCandidate = .ok b := by
  intro s hs
  cases himport : s.import? with
  | none => exact ⟨false, Node.isCandidate_of_import?_eq_none himport⟩
  | some d =>
    obtain rfl := Node.import?_eq_some.1 himport
    obtain ⟨i, rfl⟩ := h d hs
    exact i.isCandidate_toStatement

/-- A module with plain imports is transformed wherever its plans are made. -/
theorem ImportsPlain.transform_yieldsOr (h : ImportsPlain ss) {P : List (Option Plan) → Prop}
    (hplans : (plansFor oracle options file ss).YieldsOr (Sound ·.oracle) P E)
    (trailing : Option String) :
    (transform oracle options (.sourceModule file (some ss) trailing)).YieldsOr (Sound ·.oracle)
      (fun changed => ∀ m, changed = some m → ∃ plans, P plans ∧
        m = .sourceModule file (some (planned ss plans)) trailing) E := by
  intro p hp
  obtain ⟨eligible, he⟩ : ∃ b, (Node.sourceModule file (some ss) trailing).isEligible
      options.framework = .ok b := by
    apply isEligible_ok
    intro d hd
    obtain ⟨i, rfl⟩ := h d hd
    exact ⟨_, i.specifier_toStatement⟩
  cases eligible with
  | false =>
    exact .inl ⟨none, _, transform_runFrom_skipped he p, hp, fun m hm => nomatch hm⟩
  | true =>
    rw [transform_runFrom_plans he h.isCandidate_ok]
    refine hplans.bind (fun plans hP => .pure ?_) p hp
    intro m hm
    split at hm
    · exact ⟨plans, hP, (Option.some.inj hm).symm⟩
    · cases hm

theorem ImportsPlain.transform_yields (h : ImportsPlain ss)
    (hplans : (plansFor oracle options file ss).Yields (Sound ·.oracle) fun _ => True)
    (trailing : Option String) :
    (transform oracle options (.sourceModule file (some ss) trailing)).Yields (Sound ·.oracle)
      fun _ => True :=
  ((h.transform_yieldsOr (hplans.yieldsOr fun _ => False) trailing).yields fun _ => id).mono
    fun _ _ => trivial

/-- Under the contract every module with plain imports gets its plans, unless what is injected
fails: each of them leaves an import alone or defers some of its names. -/
theorem ImportsPlain.plansFor_yieldsOr (h : ImportsPlain ss)
    (hcontract : oracle.KeepsContract Sound Known) :
    (plansFor oracle options file ss).YieldsOr (Sound ·.oracle)
      (∀ plan ∈ ·, ∀ made, plan = some made → ∃ i : PlainImport,
        made = Plan.unchanged i.toStatement ∨ ∃ names, Plan.Defers options file i names made)
      (Plan.InjectsMisfit options file) := by
  apply DeferredImports.plansFor_yieldsOr
  intro s hs
  unfold planFor
  split
  · next d himport _ =>
    obtain rfl := Node.import?_eq_some.1 himport
    obtain ⟨i, rfl⟩ := h d hs
    refine (Plan.ofImport_yieldsOr hcontract options i file).bind fun plan hplan => ?_
    refine .pure fun made hmade => ⟨i, ?_⟩
    cases hmade
    exact hplan.imp_right fun ⟨names, _, _, hdefers⟩ => ⟨names, hdefers⟩
  · exact .pure fun made hmade => nomatch hmade

end plain

/-- An import of the framework, one of a component, the same one for types, and once more inside of
an expression. -/
def panelStatements : List Node :=
  let panel := Plan.panelImport.toStatement
  [.importOf (.doubleQuoted "react") none none (some "React"), panel.toNode,
    { panel with isTypeOnly := some true }.toNode,
    .variableStatement [.variableDeclaration "again" (some (.arrow [] (some panel.toNode)))]
      .constant none]

theorem importsFramework_panelStatements : ImportsFramework {} panelStatements := by
  refine ⟨[], ⟨.doubleQuoted "react", none, some (.namespaceImport (.identifier "React")),
    some false, none, none⟩, panelStatements.tail, rfl, rfl, fun e he => nomatch he⟩

theorem transform_runFrom_panelStatements :
    ∃ plan q, (plansFor Oracle.panelOracle {} "app.tsx" panelStatements).runFrom ⟨[], ()⟩ =
        (.ok [none, some plan, none, none], q) ∧
      (transform Oracle.panelOracle {} (.sourceModule "app.tsx" (some panelStatements)
        none)).runFrom ⟨[], ()⟩ = (.ok (some (.sourceModule "app.tsx"
          (some (planned panelStatements [none, some plan, none, none])) none)), q) := by
  have heligible : (Node.sourceModule "app.tsx" (some panelStatements) none).isEligible
      ({} : Options).framework = .ok true :=
    isEligible_of_importsFramework (by decide) importsFramework_panelStatements
  obtain ⟨flags, hflags⟩ : ∃ flags, panelStatements.mapM Node.isCandidate = .ok flags := ⟨_, rfl⟩
  obtain ⟨plan, q, hplans, hdeferred⟩ : ∃ plan q,
      (plansFor Oracle.panelOracle {} "app.tsx" panelStatements).runFrom ⟨[], ()⟩ =
        (.ok [none, some plan, none, none], q) ∧ plan.deferred = true := ⟨_, _, rfl, rfl⟩
  exact ⟨plan, q, hplans, transform_runFrom_deferred heligible (isCandidate_ok_of_mapM hflags)
    hplans (by simp [anyDeferred, hdeferred])⟩

/-- Of the imports only the one at the top level that is not for types gets a plan. -/
theorem transform_substitutes_plans_panel :
    Text.ends ".d.ts" "app.tsx" = false ∧ ImportsFramework {} panelStatements ∧
      ∃ plans q,
        (plansFor Oracle.panelOracle {} "app.tsx" panelStatements).runFrom ⟨[], ()⟩ =
          (.ok plans, q) ∧
        (transform Oracle.panelOracle {} (.sourceModule "app.tsx" (some panelStatements)
          none)).runFrom ⟨[], ()⟩ =
            (.ok (some (.sourceModule "app.tsx" (some (planned panelStatements plans)) none)), q) ∧
        plans.map (Option.map Plan.componentNames) =
          [none, some ["Panel", "Side"], none, none] := by
  have hfile : Text.ends ".d.ts" "app.tsx" = false := by decide
  have htransform := (transform_substitutes_plans Oracle.panelOracle {} "app.tsx" panelStatements
    none ⟨[], ()⟩).2.1 hfile importsFramework_panelStatements
  have hcandidates : ∃ flags, panelStatements.mapM Node.isCandidate = .ok flags := ⟨_, rfl⟩
  obtain ⟨flags, hflags⟩ := hcandidates
  have hcomputed : ((plansFor Oracle.panelOracle {} "app.tsx" panelStatements).runFrom
      ⟨[], ()⟩).1.toOption.map (fun plans =>
        (anyDeferred plans, plans.map (Option.map Plan.componentNames))) =
      some (true, [none, some ["Panel", "Side"], none, none]) := by
    decide
  rw [hflags, Effect.runFrom_bind_of_ok (Effect.runFrom_ofExcept _ _)] at htransform
  rcases hrun : (plansFor Oracle.panelOracle {} "app.tsx" panelStatements).runFrom ⟨[], ()⟩ with
    ⟨_ | plans, q⟩
  · rw [hrun] at hcomputed
    cases hcomputed
  · rw [hrun] at hcomputed
    obtain ⟨hany, hnames⟩ := Prod.mk.inj (Option.some.inj hcomputed)
    refine ⟨hfile, importsFramework_panelStatements, plans, q, rfl, ?_, hnames⟩
    rw [htransform, Effect.runFrom_bind_of_ok hrun, hany]
    rfl

end DeferredImports
