import DeferredImports.Proofs.BuiltPlan

/-! Plans under the two restrictions. Main statement: with the first one a plan defers the default
name of the unrestricted plan and nothing else, with the second one it is the plan without it unless
something would be left over, and the two compose in this order. -/

namespace DeferredImports

/-- The options with their two restrictions on or off. -/
def Options.restricted (o : Options) (onlyDefault onlyWhole : Bool) : Options :=
  { o with onlyDefaultExports := onlyDefault, onlyIfFullyRemovable := onlyWhole }

namespace Plan

variable {ω σ : Type} {oracle : Oracle ω σ} {options : Options} {d : ImportStatement}
  {file : String} {names : List String} {plan : Plan} {p p' : Progress σ} {a b : Bool}

/-- The plan if it leaves nothing over, and else none for the import. -/
def ifWhole (d : ImportStatement) (plan : Plan) : Plan :=
  if plan.residual.isNone then plan else unchanged d

theorem lazyBindings_restricted (names : List String) :
    (lazyBindings (options.restricted a b) d names : Session σ (List Node)) =
      lazyBindings options d names := by
  induction names with
  | nil => rfl
  | cons name names ih =>
    rw [lazyBindings, lazyBindings, ih]
    rfl

theorem askInjected_restricted :
    (askInjected (options.restricted a b) file : Session σ (Option Node)) =
      askInjected options file := rfl

/-- Building for a whole removal goes the same way until something turns out to be left over. -/
theorem build_ifWhole
    (h : (build (options.restricted a false) d names file : Session σ Plan).runFrom p =
      (.ok plan, p')) :
    plan.deferred = true ∧ plan.componentNames = names ∧
      ((build (options.restricted a true) d names file : Session σ Plan).runFrom p).1 =
        .ok (plan.ifWhole d) := by
  unfold build at h ⊢
  rw [lazyBindings_restricted, askInjected_restricted] at h ⊢
  obtain ⟨constants, q, hconstants, h⟩ := Effect.runFrom_bind_eq_ok h
  obtain ⟨residual, hfound, h⟩ := Effect.ofExcept_bind_eq_ok h
  rw [Effect.runFrom_bind_of_ok hconstants, hfound, Effect.ofExcept_ok_bind]
  have hflags : (options.restricted a false).onlyIfFullyRemovable = false ∧
      (options.restricted a true).onlyIfFullyRemovable = true := ⟨rfl, rfl⟩
  simp only [hflags.1, hflags.2, Bool.and_false, Bool.and_true, Bool.false_eq_true, if_false]
    at h ⊢
  have hrun := h
  obtain ⟨injected, _, -, h⟩ := Effect.runFrom_bind_eq_ok h
  split at h
  · cases h
  obtain ⟨_, -, h⟩ := Effect.ofExcept_bind_eq_ok h
  obtain ⟨specifier, hspecifier, h⟩ := Effect.ofExcept_bind_eq_ok h
  obtain ⟨_, _, -, h⟩ := Effect.runFrom_bind_eq_ok h
  cases h
  refine ⟨rfl, rfl, ?_⟩
  cases residual with
  | none =>
    simp only [Option.isSome_none, Bool.false_eq_true, if_false]
    rw [hrun]
    rfl
  | some r =>
    simp only [Option.isSome_some, if_true]
    rw [hspecifier, Effect.ofExcept_ok_bind]
    rfl

theorem sublist_of_classified {isComponent : String → Session σ Bool} {bs : List (String × String)}
    (h : (classified isComponent bs).runFrom p = (.ok names, p')) :
    names.Sublist (bs.map Prod.fst) := by
  have hone : ∀ exported, (isComponent exported).YieldsOr (fun _ => True) (fun _ => True)
      fun _ => True := fun exported => Effect.yieldsOr_any _
  rcases classified_yieldsOr hone bs p trivial with ⟨found, q, hrun, -, hsub⟩ | ⟨e, q, hrun, -⟩
  · rw [h] at hrun
    cases hrun
    exact hsub
  · rw [h] at hrun
    cases hrun

/-- The names of the named bindings are other names than the default one. -/
theorem filter_defaultName {i : PlainImport} (hn : i.localNames.Nodup) {default named : List String}
    (hdefault : default.Sublist i.defaultName.toList)
    (hnamed : named ⊆ i.namedBindings.map PlainBinding.localName) :
    i.defaultName.toList.filter (· ∈ default ++ named) = default := by
  obtain ⟨hfirst, -, hdisjoint⟩ := List.nodup_append.1 hn
  have hone : i.defaultName.toList.Nodup := (List.nodup_append.1 hfirst).1
  rw [eq_filter_of_sublist hdefault hone]
  apply List.filter_congr
  intro n hdefaultName
  have hother : n ∉ named := fun hmem =>
    hdisjoint n (List.mem_append_left _ hdefaultName) n (hnamed hmem) rfl
  simp [hother, hdefaultName]

/-- The default binding is classified first, and alone under the restriction. -/
theorem componentsOf_restricted {i : PlainImport} (hn : i.localNames.Nodup)
    (h : (componentsOf oracle (options.restricted false b) i.toStatement file).runFrom p =
      (.ok names, p')) :
    ∃ q, (componentsOf oracle (options.restricted true b) i.toStatement file).runFrom p =
      (.ok (i.defaultName.toList.filter (· ∈ names)), q) := by
  have hflags : (options.restricted false b).onlyDefaultExports = false ∧
      (options.restricted true b).onlyDefaultExports = true := ⟨rfl, rfl⟩
  rw [componentsOf_toStatement] at h ⊢
  simp only [hflags.1, hflags.2, Bool.false_eq_true, if_false, if_true, PlainImport.valueBindings,
    classified_append] at h ⊢
  obtain ⟨default, q, hdefault, h⟩ := Effect.runFrom_bind_eq_ok h
  obtain ⟨named, q', hnamed, h⟩ := Effect.runFrom_bind_eq_ok h
  cases h
  have hdefaultSub : default.Sublist i.defaultName.toList := by
    have hsub := sublist_of_classified hdefault
    cases hname : i.defaultName <;> simpa [hname] using hsub
  have hnamedSub : named ⊆ i.namedBindings.map PlainBinding.localName := by
    have hsub := sublist_of_classified hnamed
    rw [List.map_map] at hsub
    exact (hsub.trans (List.filter_sublist.map _)).subset
  rw [filter_defaultName hn hdefaultSub hnamedSub]
  exact ⟨q, hdefault⟩

/-- What is done with an import that is allowed to change. -/
def ofAllowed (oracle : Oracle ω σ) (options : Options) (d : ImportStatement) (file : String) :
    Session σ Plan := do
  match ← componentsOf oracle options d file with
  | [] => return unchanged d
  | names => build options d names file

/-- Before any name is classified the restrictions do not matter. -/
theorem ofImport_runFrom_restricted (oracle : Oracle ω σ) (options : Options) (file : String)
    {specifier : String} (hclause : d.hasClause = true)
    (hspecifier : d.specifier = .ok specifier) (p : Progress σ) :
    ∃ q : Progress σ, ∀ a b, (ofImport oracle (options.restricted a b) d file).runFrom p =
      (if options.allows specifier file then ofAllowed oracle (options.restricted a b) d file
        else do
          Session.log (.importOptedOut specifier file)
          return unchanged d : Session σ Plan).runFrom q := by
  cases hallowed : options.allowed.isSome with
  | false =>
    refine ⟨p, fun a b => ?_⟩
    have hflag : (options.restricted a b).allowed.isSome = false := hallowed
    have hallows : (options.restricted a b).allows specifier file =
        options.allows specifier file := rfl
    unfold ofImport
    rw [hclause, hspecifier, Effect.ofExcept_ok_bind, hflag, hallows]
    cases options.allows specifier file <;> rfl
  | true =>
    refine ⟨{ p with trace := p.trace ++ [.allowedAsked specifier file] }, fun a b => ?_⟩
    have hflag : (options.restricted a b).allowed.isSome = true := hallowed
    have hallows : (options.restricted a b).allows specifier file =
        options.allows specifier file := rfl
    unfold ofImport
    rw [hclause, hspecifier, Effect.ofExcept_ok_bind, hflag, hallows]
    cases options.allows specifier file <;> rfl

theorem ofAllowed_ifWhole
    (h : (ofAllowed oracle (options.restricted a false) d file).runFrom p = (.ok plan, p')) :
    ((ofAllowed oracle (options.restricted a true) d file).runFrom p).1 =
      .ok (plan.ifWhole d) := by
  have hcomponents : componentsOf oracle (options.restricted a true) d file =
      componentsOf oracle (options.restricted a false) d file := rfl
  unfold ofAllowed at h ⊢
  rw [hcomponents]
  obtain ⟨names, q, hnames, h⟩ := Effect.runFrom_bind_eq_ok h
  rw [Effect.runFrom_bind_of_ok hnames]
  cases names with
  | nil =>
    cases h
    rfl
  | cons name names => exact (build_ifWhole h).2.2

/-- What is injected in front of a plan takes trivia. -/
theorem IsBuilt.not_misfit (h : IsBuilt options d file plan) (e : Failure) :
    ¬ InjectsMisfit options file e := by
  rintro ⟨-, n, hn, hmisfit⟩
  obtain ⟨constants, first, others, head, -, hlist, hhead, -⟩ := h.statements
  rw [hn] at hlist
  obtain ⟨rfl, -⟩ := List.cons.inj hlist
  rw [hmisfit] at hhead
  cases hhead

/-- Where a plan is built from all names, one is built from the default name. -/
theorem build_default {i : PlainImport} (hnames : names ≠ []) {q : Progress σ}
    (h : (build (options.restricted false false) i.toStatement names file :
      Session σ Plan).runFrom p = (.ok plan, p')) {defaults : List String}
    (hdefaults : defaults ⊆ i.defaultName.toList) (hne : defaults ≠ []) :
    ∃ default q', (build (options.restricted true false) i.toStatement defaults file :
      Session σ Plan).runFrom q = (.ok default, q') ∧ default.componentNames = defaults := by
  obtain ⟨hdeferred, -, -⟩ := build_ifWhole h
  have hbuilt : IsBuilt (options.restricted false false) i.toStatement file plan := by
    rcases build_cases hnames h with rfl | ⟨-, -, hbuilt⟩
    · cases hdeferred
    · exact hbuilt
  have hloaders : ∀ name ∈ defaults, ∃ l, loader i.toStatement name = .ok l := fun name hname =>
    loader_ok (by
      rw [PlainImport.map_fst_exportsBound]
      exact List.mem_append_left _ (hdefaults hname))
  rcases @build_yieldsOr σ (fun _ => True) (options.restricted true false) i file defaults hne
    hloaders q trivial with ⟨default, q', hrun, -, ⟨hwhole, -⟩ | hdefers⟩ | ⟨e, q', -, hmisfit⟩
  · cases hwhole
  · exact ⟨default, q', hrun, hdefers.componentNames⟩
  · exact absurd hmisfit (hbuilt.not_misfit e)

theorem ofAllowed_default {i : PlainImport} (hn : i.localNames.Nodup)
    (h : (ofAllowed oracle (options.restricted false false) i.toStatement file).runFrom p =
      (.ok plan, p')) :
    ∃ default q,
      (ofAllowed oracle (options.restricted true false) i.toStatement file).runFrom p =
        (.ok default, q) ∧
      default.componentNames = i.defaultName.toList.filter (· ∈ plan.componentNames) := by
  unfold ofAllowed at h ⊢
  obtain ⟨names, q, hnames, h⟩ := Effect.runFrom_bind_eq_ok h
  obtain ⟨q', hdefault⟩ := componentsOf_restricted hn hnames
  rw [Effect.runFrom_bind_of_ok hdefault]
  have hcomponents : plan.componentNames = names := by
    cases names with
    | nil =>
      cases h
      rfl
    | cons name names => exact (build_ifWhole h).2.1
  rw [hcomponents]
  cases hdefaults : i.defaultName.toList.filter (· ∈ names) with
  | nil => exact ⟨_, q', rfl, rfl⟩
  | cons name others =>
    have hne : names ≠ [] := by
      rintro rfl
      simp at hdefaults
    have hsub : name :: others ⊆ i.defaultName.toList := by
      rw [← hdefaults]
      exact List.filter_sublist.subset
    split at h
    · exact absurd rfl hne
    · exact build_default hne h hsub (List.cons_ne_nil _ _)

/-- The plan for an import with the two restrictions on or off. -/
def restrictedPlan (oracle : Oracle ω σ) (options : Options) (d : ImportStatement) (file : String)
    (p : Progress σ) (onlyDefault onlyWhole : Bool) : Except Failure Plan :=
  ((ofImport oracle (options.restricted onlyDefault onlyWhole) d file).runFrom p).1

/-- The restrictions matter only to an import that is allowed to change. -/
theorem restrictedPlan_cases (oracle : Oracle ω σ) (options : Options) (d : ImportStatement)
    (file : String) (p : Progress σ) :
    (∃ outcome, (∀ plan, outcome = .ok plan → plan = unchanged d) ∧
      ∀ a b, restrictedPlan oracle options d file p a b = outcome) ∨
    ∃ q : Progress σ, ∀ a b, restrictedPlan oracle options d file p a b =
      ((ofAllowed oracle (options.restricted a b) d file).runFrom q).1 := by
  cases hclause : d.hasClause with
  | false =>
    refine .inl ⟨.ok (unchanged d), by simp, fun a b => ?_⟩
    rw [restrictedPlan, ofImport, hclause]
    rfl
  | true =>
    cases hspecifier : d.specifier with
    | error e =>
      refine .inl ⟨.error e, by simp, fun a b => ?_⟩
      rw [restrictedPlan, ofImport, hclause, hspecifier]
      rfl
    | ok specifier =>
      obtain ⟨q, hrun⟩ := ofImport_runFrom_restricted oracle options file hclause hspecifier p
      cases hallows : options.allows specifier file with
      | false =>
        refine .inl ⟨.ok (unchanged d), by simp, fun a b => ?_⟩
        rw [restrictedPlan, hrun, hallows]
        rfl
      | true =>
        refine .inr ⟨q, fun a b => ?_⟩
        rw [restrictedPlan, hrun, hallows, if_pos rfl]

/-- Where an import, of which no local name comes twice, gets a plan without restrictions, it gets
one under each of them. Under the first one the default name is deferred if it was, and no other
name; under the second one the import stays if something would be left over, and under both the
second one applies to what the first one gives. A plan leaves the import alone or is built from its
names, and under the oracle's contract there always is one. -/
theorem ofImport_restricted (oracle : Oracle ω σ) (options : Options) {i : PlainImport}
    (hn : i.localNames.Nodup) (file : String) (p : Progress σ) :
    let made := restrictedPlan oracle options i.toStatement file p
    (∀ plan, made false false = .ok plan → ∃ default, made true false = .ok default ∧
      default.componentNames = i.defaultName.toList.filter (· ∈ plan.componentNames) ∧
      made false true = .ok (plan.ifWhole i.toStatement) ∧
      made true true = .ok (default.ifWhole i.toStatement)) ∧
    (∀ a b plan, made a b = .ok plan → plan = unchanged i.toStatement ∨
      plan.deferred = true ∧ IsBuilt (options.restricted a b) i.toStatement file plan) ∧
    ∀ Sound Known, oracle.KeepsContract Sound Known → Sound p.oracle →
      InjectsImports options file → ∃ plan, made false false = .ok plan := by
  intro made
  refine ⟨fun plan hplan => ?_, fun a b plan hplan => ?_, fun Sound Known hcontract hp hi => ?_⟩
  · rcases restrictedPlan_cases oracle options i.toStatement file p with
      ⟨outcome, houtcome, hsame⟩ | ⟨q, hrun⟩
    · obtain rfl := houtcome plan ((hsame false false).symm.trans hplan)
      have hall : ∀ a b, made a b = .ok (unchanged i.toStatement) := fun a b =>
        (hsame a b).trans ((hsame false false).symm.trans hplan)
      exact ⟨unchanged i.toStatement, hall _ _, by simp [unchanged], hall _ _, hall _ _⟩
    · have hplan' := (hrun false false).symm.trans hplan
      obtain ⟨default, q', hdefault, hnames⟩ := ofAllowed_default hn (Prod.ext hplan' rfl)
      refine ⟨default, ?_, hnames, ?_, ?_⟩
      · exact (hrun true false).trans (by rw [hdefault])
      · exact (hrun false true).trans (ofAllowed_ifWhole (Prod.ext hplan' rfl))
      · exact (hrun true true).trans (ofAllowed_ifWhole hdefault)
  · exact ofImport_cases (Prod.ext hplan rfl)
  · obtain ⟨plan, q, hrun, -⟩ :=
      ofImport_yields hcontract (options.restricted false false) i file hi p hp
    exact ⟨plan, congrArg Prod.fst hrun⟩

/-- Of two components the default one alone is deferred under the first restriction, and as other
names would be left over, nothing is under the second one. -/
theorem ofImport_restricted_panel :
    panelImport.localNames.Nodup ∧ ∃ plan default,
      restrictedPlan Oracle.panelOracle {} panelImport.toStatement "app.tsx" ⟨[], ()⟩ false false =
        .ok plan ∧ plan.componentNames = ["Panel", "Side"] ∧
      restrictedPlan Oracle.panelOracle {} panelImport.toStatement "app.tsx" ⟨[], ()⟩ true false =
        .ok default ∧ default.componentNames = ["Panel"] ∧
      restrictedPlan Oracle.panelOracle {} panelImport.toStatement "app.tsx" ⟨[], ()⟩ true true =
        .ok (unchanged panelImport.toStatement) := by
  have hn : panelImport.localNames.Nodup := by decide
  obtain ⟨hrestricted, -, hexists⟩ :=
    ofImport_restricted Oracle.panelOracle {} hn "app.tsx" ⟨[], ()⟩
  obtain ⟨plan, hplan⟩ := hexists (fun _ => True) (fun _ => True)
    Oracle.panelOracle_keepsContract trivial fun n hn => by cases hn
  obtain ⟨default, hdefault, hnames, -, hboth⟩ := hrestricted plan hplan
  have hall : (restrictedPlan Oracle.panelOracle {} panelImport.toStatement "app.tsx" ⟨[], ()⟩
      false false).toOption.map componentNames = some ["Panel", "Side"] := by
    decide
  have hleft : (restrictedPlan Oracle.panelOracle {} panelImport.toStatement "app.tsx" ⟨[], ()⟩
      true false).toOption.map (·.residual.isNone) = some false := by
    decide
  rw [hplan] at hall
  rw [hdefault] at hleft
  rw [Option.some.inj hall] at hnames
  rw [ifWhole, if_neg (by simp [Option.some.inj hleft])] at hboth
  exact ⟨hn, plan, default, hplan, Option.some.inj hall, hdefault, hnames, hboth⟩

end Plan

end DeferredImports
