import DeferredImports.Plan
import DeferredImports.Proofs.Contract
import DeferredImports.Proofs.PlainImport
import Mathlib.Data.List.Forall2

/-! The plan for a plain import. Main statement: it is always built, and it either leaves alone
what it is for or holds the injected import, one constant for each deferred name and the import of
the other names, in this order. -/

namespace DeferredImports

namespace PlainImport

/-- The import of the other names, if there are any. -/
def rest? (i : PlainImport) (names : List String) : Option PlainImport :=
  if (i.without names).localNames = [] then none else some (i.without names)

theorem eq_without_of_rest? {i r : PlainImport} {names : List String}
    (h : i.rest? names = some r) : r = i.without names ∧ r.localNames ≠ [] := by
  unfold rest? at h
  split at h
  · cases h
  · next hne =>
    cases h
    exact ⟨rfl, hne⟩

theorem rest?_isSome {i : PlainImport} {names : List String} :
    (i.rest? names).isSome ↔ (i.without names).localNames ≠ [] := by
  unfold rest?
  split <;> simp [*]

theorem localNames_of_rest?_eq_none {i : PlainImport} {names : List String}
    (h : i.rest? names = none) : (i.without names).localNames = [] := by
  by_contra hne
  have := rest?_isSome.2 hne
  simp [h] at this

end PlainImport

namespace Plan

open PlainBinding (toNode)

variable {ω σ : Type}

theorem findBinding_toNode (name : String) (bs : List PlainBinding) :
    findBinding name (bs.map toNode) =
      match bs.find? (·.localName == name) with
      | some b => .ok b.toNode
      | none => .error (.unboundName name) := by
  induction bs with
  | nil => rfl
  | cons b bs ih =>
    simp only [List.map_cons, findBinding, PlainBinding.localName_toNode, bind, Except.bind]
    by_cases h : b.localName = name
    · simp [h]; rfl
    · simp [h, ih]

/-- The default binding comes before the named ones. -/
theorem loader_toStatement (i : PlainImport) (name : String) :
    loader i.toStatement name =
      if i.defaultName = some name then .ok (.importCall i.literal)
      else match i.namedBindings.find? (·.localName == name) with
        | some b => .ok (selectExport (.importCall i.literal) b.exportedName)
        | none => .error (.unboundName name) := by
  simp only [loader, PlainImport.defaultBinding?_toStatement, PlainImport.specifiers_toStatement,
    findBinding_toNode, bind, Except.bind]
  by_cases hd : i.defaultName = some name
  · simp [hd]
    rfl
  · cases i.namedBindings.find? (·.localName == name) with
    | none => simp [hd]
    | some b =>
      simp [hd]
      rfl

/-- A name that the import binds to an export has a loader. -/
theorem loader_ok {i : PlainImport} {name : String} (h : name ∈ i.exportsBound.map Prod.fst) :
    ∃ l, loader i.toStatement name = .ok l := by
  rw [loader_toStatement]
  split
  · exact ⟨_, rfl⟩
  · next hd =>
    have hname : name ∈ i.namedBindings.map PlainBinding.localName := by
      rw [PlainImport.map_fst_exportsBound, List.mem_append] at h
      exact h.resolve_left fun h => hd (Option.mem_toList.1 h)
    obtain ⟨b, hb, hbn⟩ := List.mem_map.1 hname
    obtain ⟨c, hc⟩ : ∃ c, i.namedBindings.find? (·.localName == name) = some c :=
      Option.isSome_iff_exists.1 (List.find?_isSome.2 ⟨b, hb, by simp [hbn]⟩)
    exact ⟨_, by rw [hc]⟩

/-- Where no local name comes twice, the first binding with the name of a binding is that one. -/
theorem find?_localName {bs : List PlainBinding} (hn : (bs.map PlainBinding.localName).Nodup)
    {b : PlainBinding} (hb : b ∈ bs) : bs.find? (·.localName == b.localName) = some b := by
  induction bs with
  | nil => cases hb
  | cons c cs ih =>
    obtain ⟨hc, hcs⟩ := List.nodup_cons.1 hn
    rcases List.mem_cons.1 hb with rfl | hb
    · simp
    · have hne : c.localName ≠ b.localName := fun h => hc (h ▸ List.mem_map_of_mem hb)
      simp [hne, ih hcs hb]

/-- Where no local name comes twice, the loader of a name asks for the export that the name is
bound to. -/
theorem loader_of_mem {i : PlainImport} (hn : i.localNames.Nodup) {name exported : String}
    (h : (name, exported) ∈ i.exportsBound) :
    loader i.toStatement name = .ok (.importCall i.literal) ∧ exported = "default" ∨
      loader i.toStatement name = .ok (selectExport (.importCall i.literal) exported) := by
  have hb : (i.exportsBound.map Prod.fst).Nodup := i.exportsBound_sublist.nodup hn
  rw [PlainImport.map_fst_exportsBound, List.nodup_append] at hb
  obtain ⟨-, hnamed, hdisjoint⟩ := hb
  rw [loader_toStatement]
  rcases List.mem_append.1 h with h | h
  · left
    obtain ⟨n, hd, he⟩ : ∃ n, i.defaultName = some n ∧ (n, "default") = (name, exported) := by
      simpa using h
    cases he
    exact ⟨by rw [if_pos hd], rfl⟩
  · right
    obtain ⟨b, hmem, he⟩ := List.mem_map.1 h
    cases he
    have hd : i.defaultName ≠ some b.localName := fun hd =>
      hdisjoint _ (Option.mem_toList.2 hd) _ (List.mem_map_of_mem hmem) rfl
    rw [if_neg hd, find?_localName hnamed hmem]

theorem keptBindings_toNode (names : List String) (bs : List PlainBinding) :
    keptBindings names (bs.map toNode) =
      .ok ((bs.filter (·.localName ∉ names)).map toNode) := by
  induction bs with
  | nil => rfl
  | cons b bs ih =>
    simp only [List.map_cons, keptBindings, PlainBinding.localName_toNode, ih, bind, Except.bind]
    by_cases h : b.localName ∈ names <;> simp [h] <;> rfl

theorem keptDefault_toStatement (i : PlainImport) (names : List String) :
    keptDefault i.toStatement names = .ok ((i.without names).defaultName.map .identifier) := by
  simp only [keptDefault, PlainImport.defaultBinding?_toStatement, bind, Except.bind]
  cases h : i.defaultName with
  | none => simp [PlainImport.without, PlainImport.toStatement, h, pure, Except.pure]
  | some n =>
    by_cases hn : n ∈ names <;>
      simp [PlainImport.without, PlainImport.toStatement, h, hn, Option.filter, pure, Except.pure]

theorem keptClause_toStatement (i : PlainImport) (names : List String) :
    keptClause i.toStatement names =
      .ok ((i.without names).clause.map PlainClause.toNode,
        (i.without names).namespaceName.toList.length +
          (i.without names).namedBindings.length) := by
  cases h : i.clause with
  | none =>
    simp only [keptClause, PlainImport.toStatement, PlainImport.without, h]
    rfl
  | some clause =>
    cases clause with
    | namespaceAs n =>
      simp only [keptClause, PlainImport.toStatement, PlainImport.without, h]
      rfl
    | named bs =>
      simp only [keptClause, PlainImport.toStatement, PlainImport.without,
        PlainImport.namespaceName, PlainImport.namedBindings, h, Option.map_some,
        PlainClause.toNode, Node.items, keptBindings_toNode, bind, Except.bind]
      cases bs.filter (·.localName ∉ names) with
      | nil => rfl
      | cons c cs =>
        simp [PlainClause.ofBindings?, PlainClause.toNode]
        rfl

/-- The residual import holds exactly the other names, and there is none without names. -/
theorem residualImport_toStatement (i : PlainImport) (names : List String) :
    residualImport i.toStatement names =
      .ok ((i.rest? names).map fun r => (r.toStatement, r.localNames.length)) := by
  have hcount : (i.without names).localNames.length =
      ((i.without names).defaultName.map Node.identifier).toList.length +
        ((i.without names).namespaceName.toList.length +
          (i.without names).namedBindings.length) := by
    simp only [PlainImport.localNames, List.length_append, List.length_map, Option.toList_map,
      Nat.add_assoc]
  simp only [residualImport, keptDefault_toStatement, keptClause_toStatement, bind, Except.bind,
    ← hcount, PlainImport.rest?]
  cases h : (i.without names).localNames with
  | nil => rfl
  | cons n ns => simp [h]; rfl

/-- A constant with the given name that wraps the loader of that name. -/
def IsLazyConstant (wrapper : Node) (d : ImportStatement) (name : String) (s : Node) : Prop :=
  ∃ l trivia, loader d name = .ok l ∧
    s = .constantNamed name (some (.call wrapper [.arrow [] (some l)])) trivia

theorem IsLazyConstant.withLeadingTrivia {wrapper : Node} {d : ImportStatement} {name : String}
    {s : Node} (h : IsLazyConstant wrapper d name s) (trivia : Option String) :
    ∃ s', s.withLeadingTrivia trivia = .ok s' ∧ IsLazyConstant wrapper d name s' := by
  obtain ⟨l, _, hl, rfl⟩ := h
  exact ⟨_, rfl, l, trivia, hl, rfl⟩

variable {Sound : σ → Prop}

theorem lazyBindings_yields (options : Options) (d : ImportStatement) {names : List String}
    (h : ∀ name ∈ names, ∃ l, loader d name = .ok l) :
    (lazyBindings options d names).Yields (Sound ·.oracle) fun constants =>
      List.Forall₂ (fun name s => IsLazyConstant options.wrapperExpression d name s ∧
        s.leadingTrivia? = none) names constants := by
  induction names with
  | nil => exact .pure .nil
  | cons name names ih =>
    obtain ⟨l, hl⟩ := h name List.mem_cons_self
    unfold lazyBindings
    refine .ofExcept_bind hl ?_
    have hrest := ih fun n hn => h n (List.mem_cons_of_mem name hn)
    apply Session.yields_act_if
    exact hrest.bind fun _ hc => .pure (.cons ⟨⟨l, none, hl, rfl⟩, rfl⟩ hc)

theorem askInjected_yields (options : Options) (file : String) :
    (askInjected options file).Yields (Sound ·.oracle) (· = options.injectedImport file) := by
  unfold askInjected
  exact Session.yields_act_if _ _ (.pure rfl)

/-- An injected import is an import statement. -/
def InjectsImports (options : Options) (file : String) : Prop :=
  ∀ n, options.injectedImport file = some n → ∃ d : ImportStatement, n = d.toNode

/-- What is injected takes no trivia, and fails where it stands first. -/
def InjectsMisfit (options : Options) (file : String) (e : Failure) : Prop :=
  e = .unfit ∧ ∃ n, options.injectedImport file = some n ∧
    ∀ trivia, n.withLeadingTrivia trivia = .error .unfit

theorem InjectsImports.not_misfit {options : Options} {file : String}
    (h : InjectsImports options file) (e : Failure) : ¬ InjectsMisfit options file e := by
  rintro ⟨-, n, hn, hmisfit⟩
  obtain ⟨d, rfl⟩ := h n hn
  cases hmisfit none

theorem withLeadingTrivia_cases (n : Node) (trivia : Option String) :
    (∃ n', n.withLeadingTrivia trivia = .ok n') ∨
      ∀ trivia, n.withLeadingTrivia trivia = .error .unfit := by
  cases n <;> simp [Node.withLeadingTrivia]

/-- The plan puts the injected import, a constant for each of the names and the import of the other
names in place of the import, and the first of them takes over the trivia. -/
structure Defers (options : Options) (file : String) (i : PlainImport) (names : List String)
    (plan : Plan) : Prop where
  deferred : plan.deferred = true
  componentNames : plan.componentNames = names
  residual : plan.residual = (i.rest? names).map PlainImport.toStatement
  statements : ∃ constants first others head,
    List.Forall₂ (fun name s => IsLazyConstant options.wrapperExpression i.toStatement name s ∧
      s.leadingTrivia? = none) names constants ∧
    (options.injectedImport file).toList ++ constants ++
        ((i.rest? names).map fun r => r.toStatement.toNode).toList = first :: others ∧
    first.withLeadingTrivia i.leadingTrivia = .ok head ∧ plan.statements = head :: others

/-- The statement that comes first takes the trivia of the import, unless it is injected and takes
none. -/
theorem withLeadingTrivia_of_head {options : Options} {i : PlainImport} {names : List String}
    {constants : List Node} (file : String) (hc : List.Forall₂ (fun name s =>
      IsLazyConstant options.wrapperExpression i.toStatement name s ∧ s.leadingTrivia? = none)
      names constants) (hnames : names ≠ []) (others : List Node) :
    ∃ first rest, (options.injectedImport file).toList ++ constants ++ others = first :: rest ∧
      ((∃ head, first.withLeadingTrivia i.leadingTrivia = .ok head) ∨
        first.withLeadingTrivia i.leadingTrivia = .error .unfit ∧
          InjectsMisfit options file .unfit) := by
  cases hinj : options.injectedImport file with
  | some n =>
    refine ⟨n, constants ++ others, rfl, ?_⟩
    rcases withLeadingTrivia_cases n i.leadingTrivia with hok | hmisfit
    · exact .inl hok
    · exact .inr ⟨hmisfit i.leadingTrivia, rfl, n, hinj, hmisfit⟩
  | none =>
    cases hc with
    | nil => exact absurd rfl hnames
    | cons h _ =>
      obtain ⟨head, hhead, _⟩ := h.1.withLeadingTrivia i.leadingTrivia
      exact ⟨_, _, rfl, .inl ⟨head, hhead⟩⟩

theorem build_yieldsOr (options : Options) (i : PlainImport) (file : String) {names : List String}
    (hnames : names ≠ []) (hl : ∀ name ∈ names, ∃ l, loader i.toStatement name = .ok l) :
    (build options i.toStatement names file).YieldsOr (Sound ·.oracle)
      (fun plan => options.onlyIfFullyRemovable = true ∧ plan = unchanged i.toStatement ∨
        Defers options file i names plan)
      (InjectsMisfit options file) := by
  unfold build
  refine (lazyBindings_yields options i.toStatement hl).bind_yieldsOr ?_
  intro constants hc
  refine .ofExcept_bind (residualImport_toStatement i names) ?_
  dsimp only
  split
  · next hbail =>
    apply Effect.Yields.yieldsOr
    refine .ofExcept_bind i.specifier_toStatement ?_
    refine (Session.yields_log _).bind fun _ _ => ?_
    exact .pure (.inl ⟨(Bool.and_eq_true_iff.1 hbail).2, rfl⟩)
  · refine (askInjected_yields options file).bind_yieldsOr ?_
    rintro _ rfl
    have hrest : ((((i.rest? names).map fun r => (r.toStatement, r.localNames.length)).map
        Prod.fst).map ImportStatement.toNode).toList =
        ((i.rest? names).map fun r => r.toStatement.toNode).toList := by
      cases i.rest? names <;> rfl
    rw [hrest]
    obtain ⟨first, others, hlist, ⟨head, hhead⟩ | ⟨herror, hmisfit⟩⟩ :=
      withLeadingTrivia_of_head file hc hnames
        ((i.rest? names).map fun r => r.toStatement.toNode).toList
    · rw [hlist]
      apply Effect.Yields.yieldsOr
      refine .ofExcept_bind hhead ?_
      refine .ofExcept_bind i.specifier_toStatement ?_
      refine (Session.yields_log _).bind fun _ _ => .pure (.inr ?_)
      refine ⟨rfl, rfl, ?_, constants, first, others, _, hc, hlist, hhead, rfl⟩
      cases i.rest? names <;> rfl
    · rw [hlist]
      exact .ofExcept_error herror hmisfit _

/-- The local names among some bindings whose exports are components. -/
def classified (isComponent : String → Session σ Bool) :
    List (String × String) → Session σ (List String)
  | [] => pure []
  | (name, exported) :: bs => do
    let here ← isComponent exported
    let others ← classified isComponent bs
    return if here then name :: others else others

theorem classified_append (isComponent : String → Session σ Bool)
    (bs others : List (String × String)) :
    classified isComponent (bs ++ others) = (do
      let names ← classified isComponent bs
      let otherNames ← classified isComponent others
      return names ++ otherNames) := by
  induction bs with
  | nil => simp [classified]
  | cons b bs ih =>
    simp only [List.cons_append, classified, ih, bind_assoc, pure_bind]
    congr 1
    funext here
    cases here <;> simp

/-- Of the named bindings those of values are classified, one after the other. -/
theorem namedComponents_toNode (isComponent : String → Session σ Bool) (bs : List PlainBinding) :
    namedComponents isComponent (bs.map toNode) =
      classified isComponent ((bs.filter fun b => !b.forTypes).map fun b =>
        (b.localName, b.exportedName)) := by
  induction bs with
  | nil => rfl
  | cons b bs ih =>
    rw [List.map_cons, namedComponents, ih, namedComponent?, b.isTypeOnly_toNode,
      b.exportedName_toNode, b.localName_toNode]
    simp only [Effect.ofExcept_ok_bind]
    cases hb : b.forTypes with
    | true => simp [hb]
    | false =>
      simp only [hb, List.filter_cons, Bool.not_false, if_pos, List.map_cons, classified,
        bind_assoc, Bool.false_eq_true, if_false]
      congr 1
      funext here
      cases here <;> simp

theorem defaultComponent_toStatement (isComponent : String → Session σ Bool) (i : PlainImport) :
    defaultComponent isComponent i.toStatement =
      classified isComponent (i.defaultName.map fun n => (n, "default")).toList := by
  cases h : i.defaultName with
  | none => simp [defaultComponent, PlainImport.toStatement, h, classified]
  | some n =>
    simp only [defaultComponent, PlainImport.toStatement, h, Option.map_some, Option.toList_some,
      classified, pure_bind]
    congr 1
    funext here
    cases here <;> rfl

/-- The components of an import are found binding by binding. -/
theorem componentsOf_toStatement (oracle : Oracle ω σ) (options : Options) (i : PlainImport)
    (file : String) :
    componentsOf oracle options i.toStatement file =
      classified (oracle.isComponent options.framework i.specifier · file)
        (if options.onlyDefaultExports then (i.defaultName.map fun n => (n, "default")).toList
          else i.valueBindings) := by
  unfold componentsOf
  rw [i.specifier_toStatement, i.specifiers_toStatement]
  simp only [Effect.ofExcept_ok_bind, defaultComponent_toStatement, namedComponents_toNode]
  cases options.onlyDefaultExports with
  | true => simp
  | false => simp [PlainImport.valueBindings, classified_append]

/-- Some of the names are found, in their order. -/
theorem classified_yieldsOr {isComponent : String → Session σ Bool} {I : Progress σ → Prop}
    {E : Failure → Prop} (h : ∀ exported, (isComponent exported).YieldsOr I (fun _ => True) E)
    (bs : List (String × String)) :
    (classified isComponent bs).YieldsOr I (·.Sublist (bs.map Prod.fst)) E := by
  induction bs with
  | nil => exact .pure .slnil
  | cons b bs ih =>
    unfold classified
    refine (h b.2).bind fun here _ => ih.bind fun others hothers => .pure ?_
    cases here with
    | true => exact hothers.cons_cons b.1
    | false => exact hothers.cons b.1

variable {oracle : Oracle ω σ} {Known : ExportedSymbol ω → Prop}

theorem componentsOf_yields (h : oracle.KeepsContract Sound Known) (options : Options)
    (i : PlainImport) (file : String) :
    (componentsOf oracle options i.toStatement file).Yields (Sound ·.oracle)
      (List.Sublist · i.deferrable) := by
  have hone : ∀ exported, (oracle.isComponent options.framework i.specifier exported file).YieldsOr
      (Sound ·.oracle) (fun _ => True) fun _ => False :=
    fun exported => (h.isComponent_yields options.framework i.specifier exported file).yieldsOr _
  rw [componentsOf_toStatement]
  refine ((classified_yieldsOr hone _).yields fun _ => id).mono fun names hnames => ?_
  refine hnames.trans ?_
  rw [← i.map_fst_valueBindings]
  apply List.Sublist.map
  split
  · exact List.sublist_append_left _ _
  · exact List.Sublist.refl _

/-- The plan leaves the import alone, or defers some of the names that it may defer, unless what is
injected fails. -/
theorem ofImport_yieldsOr (h : oracle.KeepsContract Sound Known) (options : Options)
    (i : PlainImport) (file : String) :
    (ofImport oracle options i.toStatement file).YieldsOr (Sound ·.oracle)
      (fun plan => plan = unchanged i.toStatement ∨
        ∃ names, names ≠ [] ∧ names.Sublist i.deferrable ∧ Defers options file i names plan)
      (InjectsMisfit options file) := by
  unfold ofImport
  split
  · exact .pure (.inl rfl)
  refine .ofExcept_bind i.specifier_toStatement ?_
  apply Session.yieldsOr_act_if
  split
  · exact (Session.yields_log _).bind_yieldsOr fun _ _ => .pure (.inl rfl)
  refine (componentsOf_yields h options i file).bind_yieldsOr ?_
  intro names hnames
  split
  · exact .pure (.inl rfl)
  · next hne =>
    have hl : ∀ name ∈ names, ∃ l, loader i.toStatement name = .ok l := fun name hname =>
      loader_ok (i.deferrable_sublist.subset (hnames.subset hname))
    refine (build_yieldsOr options i file hne hl).mono ?_ fun _ he => he
    rintro plan (⟨-, rfl⟩ | hp)
    · exact .inl rfl
    · exact .inr ⟨names, hne, hnames, hp⟩

theorem ofImport_yields (h : oracle.KeepsContract Sound Known) (options : Options)
    (i : PlainImport) (file : String) (hi : InjectsImports options file) :
    (ofImport oracle options i.toStatement file).Yields (Sound ·.oracle) fun plan =>
      plan = unchanged i.toStatement ∨
        ∃ names, names ≠ [] ∧ names.Sublist i.deferrable ∧ Defers options file i names plan :=
  (ofImport_yieldsOr h options i file).yields hi.not_misfit

end Plan

end DeferredImports
