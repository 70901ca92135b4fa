import DeferredImports.Proofs.DeclaredNames

/-! What the statements of a file export explicitly, form by form. Main statement: where the names
that a file exports of its own are declared plainly, it is read as exporting under each name what
the last statement says of it that says anything. -/

namespace DeferredImports.SourceFile

/-- The local name that an import specifier binds, and the exported name that it stands for. -/
def specifierBinding (f : SourceFile) (t : ParseTree) : String × String :=
  let exported := f.exportNameOf (t.child? .name)
  (((t.child? .newName).map f.text).getD exported, exported)

/-- The bindings of a part of an import clause: a default name, or names in braces. -/
def partBindings (f : SourceFile) (part : ParseTree) : List (String × String) :=
  if part.type = "identifier" then [(f.text part, "default")]
  else if part.type = "named_imports" then (specifiersIn part).map f.specifierBinding
  else []

/-- The bindings of an import statement: local names with the specifier of the module and the name
that it exports. -/
def importBindings (f : SourceFile) (statement : ParseTree) : List (String × String × String) :=
  if statement.type = "import_statement" then
    match statement.child? .source, importClause? statement with
    | some source, some clause => (clause.namedChildren.flatMap f.partBindings).map fun b =>
      (b.1, f.exportName source, b.2)
    | _, _ => []
  else []

/-- What a local name stands for: its value declarations, or else the name of another module that
the first import of it binds, or nothing that is known. -/
def localMeaning (f : SourceFile) (name : String) : Meaning :=
  match f.valueEntries name with
  | [] =>
    match (f.root.namedChildren.flatMap f.importBindings).lookup name with
    | some (specifier, original) => .taken specifier original
    | none => .own []
  | entries => .own entries

/-- The forms of exports: by default of a declaration, of a local name and of another value; of the
values that a declaration binds; in braces, where the last specifier for a name counts, of another
module's names and of local ones; and of a whole module under one name. -/
inductive ExportForm (f : SourceFile) (statement : ParseTree) : String → Meaning → Prop
  | defaultDeclaration {d : ParseTree} (hd : statement.child? .declaration = some d)
      (hdefault : statement.hasToken "default" = true) :
      ExportForm f statement "default" (.own [f.ownEntry d])
  | defaultName {v : ParseTree} (hd : statement.child? .declaration = none)
      (hv : statement.child? .value = some v) (hdefault : statement.hasToken "default" = true)
      (hname : v.type = "identifier") :
      ExportForm f statement "default" (f.localMeaning (f.text v))
  | defaultValue {v : ParseTree} (hd : statement.child? .declaration = none)
      (hv : statement.child? .value = some v) (hdefault : statement.hasToken "default" = true)
      (hname : v.type ≠ "identifier") :
      ExportForm f statement "default" (.own [⟨f.exportValue v, ⟨f.path, v, []⟩⟩])
  | declaration {d : ParseTree} {name : String} (hd : statement.child? .declaration = some d)
      (hdefault : statement.hasToken "default" = false) (hname : name ∈ f.boundNames d)
      (hvalue : f.valueEntries name ≠ []) :
      ExportForm f statement name (.own (f.valueEntries name))
  | relink {clause source t : ParseTree} {name : String}
      (hd : statement.child? .declaration = none)
      (hv : statement.child? .value = none ∨ statement.hasToken "default" = false)
      (hc : statement.namedOfType? "export_clause" = some clause)
      (hs : statement.child? .source = some source)
      (hlast : (valueSpecifiers clause).find? (fun t => (f.specifierNames t).1 == name) = some t) :
      ExportForm f statement name (.taken (f.exportName source) (f.specifierNames t).2)
  | localName {clause t : ParseTree} {name : String} (hd : statement.child? .declaration = none)
      (hv : statement.child? .value = none ∨ statement.hasToken "default" = false)
      (hc : statement.namedOfType? "export_clause" = some clause)
      (hs : statement.child? .source = none)
      (hlast : (valueSpecifiers clause).find? (fun t => (f.specifierNames t).1 == name) = some t) :
      ExportForm f statement name (f.localMeaning (f.specifierNames t).2)
  | wholeModule {source t : ParseTree} {name : String} (hd : statement.child? .declaration = none)
      (hv : statement.child? .value = none ∨ statement.hasToken "default" = false)
      (hc : statement.namedOfType? "export_clause" = none)
      (hs : statement.child? .source = some source)
      (hn : statement.namedOfType? "namespace_export" = some t)
      (hname : f.textOf t.firstMeaningful? = name) :
      ExportForm f statement name
        (.own [⟨.otherDeclaration "namespace_export" (some name), ⟨f.path, t, []⟩⟩])

/-- What an export statement for values says of a name. -/
def Says (f : SourceFile) (statement : ParseTree) (name : String) (meaning : Meaning) : Prop :=
  statement.type = "export_statement" ∧ statement.isTypeOnly = false ∧
    f.ExportForm statement name meaning

/-- What the last statement says of the name that says anything of it. -/
def Exports (f : SourceFile) (name : String) (meaning : Meaning) : Prop :=
  ∃ before statement after, f.root.namedChildren = before ++ statement :: after ∧
    f.Says statement name meaning ∧ ∀ later ∈ after, ∀ other, ¬ f.Says later name other

/-- Some statement says something of the name. -/
def ExportsName (f : SourceFile) (name : String) : Prop :=
  ∃ statement ∈ f.root.namedChildren, ∃ meaning, f.Says statement name meaning

/-- The names under which a statement exports local names, each with the local one: the names that
its declaration binds, an identifier by default, and names in braces without a module. -/
def localExports (f : SourceFile) (statement : ParseTree) : List (String × String) :=
  if statement.type = "export_statement" ∧ statement.isTypeOnly = false then
    match statement.child? .declaration, statement.child? .value, statement.hasToken "default" with
    | some _, _, true => []
    | some d, _, false => (f.boundNames d).map fun name => (name, name)
    | none, some v, true => if v.type = "identifier" then [("default", f.text v)] else []
    | none, _, _ =>
      match statement.namedOfType? "export_clause", statement.child? .source with
      | some clause, none => (valueSpecifiers clause).map f.specifierNames
      | _, _ => []
  else []

/-- What the file exports under the name is declared plainly: exported variables of the name have an
identifier in their declarators, and variables that are exported under it are declared plainly. -/
structure ExportsPlainly (f : SourceFile) (name : String) : Prop where
  declarators : ∀ statement ∈ f.root.namedChildren, ∀ d ∈ statement.child? .declaration,
    ∀ t ∈ d.withoutAmbient?, t.isVariableStatement → ∀ c ∈ t.declarators,
      f.declaredName c = name ∨ name ∈ f.declaratorNames c → c.namesIdentifier
  names : ∀ statement ∈ f.root.namedChildren, ∀ e ∈ f.localExports statement, e.1 = name →
    f.BindsPlainly e.2

/-- The file exports nothing but what is declared plainly. -/
structure HasPlainExports (f : SourceFile) : Prop where
  declarators : ∀ statement ∈ f.root.namedChildren, ∀ d ∈ statement.child? .declaration,
    ∀ t ∈ d.withoutAmbient?, t.isVariableStatement → ∀ c ∈ t.declarators, c.namesIdentifier
  names : ∀ statement ∈ f.root.namedChildren, ∀ e ∈ f.localExports statement, f.BindsPlainly e.2

/-- Some statement exports the local name under the exported one, and every statement that says
anything of the exported name exports this local name under it, and no other. -/
structure IsExportedUnder (f : SourceFile) (name exported : String) : Prop where
  stated : ∃ statement ∈ f.root.namedChildren, (exported, name) ∈ f.localExports statement
  only : ∀ statement ∈ f.root.namedChildren, ∀ meaning, f.Says statement exported meaning →
    (exported, name) ∈ f.localExports statement ∧
      ∀ e ∈ f.localExports statement, e.1 = exported → e.2 = name

instance (f : SourceFile) : Decidable f.HasPlainExports :=
  decidable_of_iff (_ ∧ _) ⟨fun h => ⟨h.1, h.2⟩, fun h => ⟨h.declarators, h.names⟩⟩

theorem HasPlainExports.exportsPlainly {f : SourceFile} (h : f.HasPlainExports) (name : String) :
    f.ExportsPlainly name where
  declarators statement hs d hd t ht hvariable c hc _ :=
    h.declarators statement hs d hd t ht hvariable c hc
  names statement hs e he _ := h.names statement hs e he

variable {f : SourceFile} {name : String} {statement : ParseTree} {meaning : Meaning}

theorem lookup_flatMap {α β : Type} (g : α → List (String × β)) (l : List α) (name : String) :
    (l.flatMap g).lookup name = l.findSome? fun a => (g a).lookup name := by
  induction l with
  | nil => rfl
  | cons a l ih =>
    rw [List.flatMap_cons, List.lookup_append, ih, List.findSome?_cons]
    cases (g a).lookup name <;> rfl

/-- What a part of an import clause binds to a local name is found among its bindings. -/
theorem importedName?_eq (f : SourceFile) (name : String) (part : ParseTree) :
    f.importedName? name part = (f.partBindings part).lookup name := by
  have hspecifier : f.specifierFor? name = fun t =>
      if name == (f.specifierBinding t).1 then some (f.specifierBinding t).2 else none := by
    funext t
    unfold specifierFor? specifierBinding
    cases t.child? .newName <;> simp only [beq_iff_eq, @eq_comm _ name] <;> rfl
  unfold importedName? partBindings
  split
  · next htype =>
    rw [if_pos htype, List.lookup_eq_findSome?, List.findSome?_singleton]
    simp only [beq_iff_eq, @eq_comm _ name]
  · next htype =>
    rw [if_neg (by simp [htype]), if_pos htype, List.lookup_eq_findSome?, List.findSome?_map,
      hspecifier]
    rfl
  · next hdefault hnamed =>
    rw [if_neg hdefault, if_neg hnamed]
    rfl

/-- What an import statement binds to a local name is found among its bindings. -/
theorem importBinding?_eq (f : SourceFile) (name : String) (statement : ParseTree) :
    f.importBinding? name statement = (f.importBindings statement).lookup name := by
  unfold importBinding? importBindings
  by_cases htype : statement.type = "import_statement"
  · rw [if_pos htype, if_pos (by simpa using htype)]
    cases statement.child? .source with
    | none => rfl
    | some source =>
      cases importClause? statement with
      | none => rfl
      | some clause =>
        have hparts : f.importedName? name = fun part => (f.partBindings part).lookup name :=
          funext fun part => f.importedName?_eq name part
        dsimp only
        rw [hparts, ← lookup_flatMap, List.lookup_eq_findSome?, List.lookup_eq_findSome?,
          List.findSome?_map, List.map_findSome?]
        congr 1
        funext b
        exact apply_ite (Option.map _) _ _ _
  · rw [if_neg htype, if_neg (by simpa using htype)]
    rfl

theorem BindsPlainly.meaningOf (h : f.BindsPlainly name) :
    f.meaningOf name = f.localMeaning name := by
  have himports : f.importBinding? name = fun statement =>
      (f.importBindings statement).lookup name :=
    funext fun statement => f.importBinding?_eq name statement
  unfold SourceFile.meaningOf localMeaning
  rewrite [h.localEntries, himports, lookup_flatMap]
  rfl

/-- What the specifiers in braces say of a name is what the last of them for it says. -/
theorem findSome?_specifierMeaning? (source : Option ParseTree) (ts : List ParseTree) :
    ts.findSome? (f.specifierMeaning? source name) =
      (ts.find? fun t => (f.specifierNames t).1 == name).map fun t =>
        match source with
        | some source => .taken (f.exportName source) (f.specifierNames t).2
        | none => f.meaningOf (f.specifierNames t).2 := by
  induction ts with
  | nil => rfl
  | cons t ts ih =>
    rw [List.findSome?_cons, List.find?_cons]
    unfold specifierMeaning?
    by_cases hname : (f.specifierNames t).1 = name
    · have hhere : ((t.child? .newName).map f.exportName).getD (f.exportNameOf (t.child? .name)) =
          name := hname
      rw [if_pos hhere, beq_iff_eq.2 hname]
      cases source <;> rfl
    · have hhere : ¬ ((t.child? .newName).map f.exportName).getD
          (f.exportNameOf (t.child? .name)) = name := hname
      rw [if_neg hhere, beq_eq_false_iff_ne.2 hname]
      exact ih

section values

variable (hvalues : statement.type = "export_statement" ∧ statement.isTypeOnly = false)
include hvalues

theorem localExports_declaration {d : ParseTree} (hd : statement.child? .declaration = some d) :
    f.localExports statement =
      if statement.hasToken "default" then []
      else (f.boundNames d).map fun name => (name, name) := by
  rw [localExports, if_pos hvalues, hd]
  cases statement.hasToken "default" <;> rfl

theorem localExports_value {v : ParseTree} (hd : statement.child? .declaration = none)
    (hv : statement.child? .value = some v) (hdefault : statement.hasToken "default" = true) :
    f.localExports statement = if v.type = "identifier" then [("default", f.text v)] else [] := by
  rw [localExports, if_pos hvalues, hd, hv, hdefault]

theorem localExports_listed (hd : statement.child? .declaration = none)
    (hv : statement.child? .value = none ∨ statement.hasToken "default" = false) :
    f.localExports statement =
      match statement.namedOfType? "export_clause", statement.child? .source with
      | some clause, none => (valueSpecifiers clause).map f.specifierNames
      | _, _ => [] := by
  rw [localExports, if_pos hvalues, hd]
  rcases hv with hv | hdefault
  · rw [hv]
  · rw [hdefault]
    cases statement.child? .value <;> rfl

end values

section plain

variable (h : f.ExportsPlainly name) (hs : statement ∈ f.root.namedChildren)
  (hvalues : statement.type = "export_statement" ∧ statement.isTypeOnly = false)
include h hs hvalues

theorem ExportsPlainly.bound {d : ParseTree} (hd : statement.child? .declaration = some d)
    (hdefault : statement.hasToken "default" = false) (hname : name ∈ f.boundNames d) :
    f.BindsPlainly name := by
  refine h.names statement hs (name, name) ?_ rfl
  rw [localExports_declaration hvalues hd, hdefault]
  exact List.mem_map_of_mem hname

theorem ExportsPlainly.value {v : ParseTree} (hd : statement.child? .declaration = none)
    (hv : statement.child? .value = some v) (hdefault : statement.hasToken "default" = true)
    (htype : v.type = "identifier") (hname : name = "default") : f.BindsPlainly (f.text v) := by
  refine h.names statement hs ("default", f.text v) ?_ hname.symm
  rw [localExports_value hvalues hd hv hdefault, if_pos htype]
  exact List.mem_singleton_self _

theorem ExportsPlainly.specified {clause t : ParseTree} (hd : statement.child? .declaration = none)
    (hv : statement.child? .value = none ∨ statement.hasToken "default" = false)
    (hc : statement.namedOfType? "export_clause" = some clause)
    (hsource : statement.child? .source = none)
    (hlast : (valueSpecifiers clause).find? (fun t => (f.specifierNames t).1 == name) = some t) :
    f.BindsPlainly (f.specifierNames t).2 := by
  refine h.names statement hs (f.specifierNames t) ?_ (by simpa using List.find?_some hlast)
  rw [localExports_listed hvalues hd hv, hc, hsource]
  exact List.mem_map_of_mem (List.mem_of_find?_eq_some hlast)

/-- What a statement is read as saying without a declaration and a default value is what one of the
other forms says. -/
theorem ExportsPlainly.exportForm_of_listed (hd : statement.child? .declaration = none)
    (hv : statement.child? .value = none ∨ statement.hasToken "default" = false)
    (hmeaning : f.listedMeaning? name statement = some meaning) :
    f.ExportForm statement name meaning := by
  unfold listedMeaning? at hmeaning
  cases hc : statement.namedOfType? "export_clause" with
  | some clause =>
    simp only [hc, findSome?_specifierMeaning?] at hmeaning
    obtain ⟨t, hlast, rfl⟩ := Option.map_eq_some_iff.1 hmeaning
    cases hsource : statement.child? .source with
    | some source => exact .relink hd hv hc hsource hlast
    | none =>
      have hplain := h.specified hs hvalues hd hv hc hsource hlast
      dsimp only
      rw [hplain.meaningOf]
      exact .localName hd hv hc hsource hlast
  | none =>
    simp only [hc] at hmeaning
    cases hsource : statement.child? .source with
    | none => simp [hsource] at hmeaning
    | some source =>
      cases hn : statement.namedOfType? "namespace_export" with
      | none => simp [hsource, hn] at hmeaning
      | some t =>
        simp only [hsource, hn, Option.ite_none_right_eq_some, Option.some.injEq] at hmeaning
        obtain ⟨hname, rfl⟩ := hmeaning
        exact .wholeModule hd hv hc hsource hn hname

omit hvalues

theorem ExportsPlainly.mem_declaredNames_iff {d : ParseTree}
    (hd : statement.child? .declaration = some d) :
    name ∈ f.declaredNames d ↔ name ∈ f.boundNames d :=
  SourceFile.mem_declaredNames_iff (h.declarators statement hs d hd)

/-- What an export statement is read as saying of a name is what one of its forms says. -/
theorem ExportsPlainly.says_of_statementMeaning?
    (hmeaning : f.statementMeaning? name statement = some meaning) :
    f.Says statement name meaning := by
  unfold statementMeaning? at hmeaning
  split at hmeaning
  · cases hmeaning
  next htype =>
  have hvalues : statement.type = "export_statement" ∧ statement.isTypeOnly = false := by
    simpa using htype
  refine ⟨hvalues.1, hvalues.2, ?_⟩
  cases hd : statement.child? .declaration with
  | some d =>
    cases hdefault : statement.hasToken "default" with
    | true =>
      simp only [hd, hdefault, Option.ite_none_right_eq_some, Option.some.injEq] at hmeaning
      obtain ⟨rfl, rfl⟩ := hmeaning
      exact .defaultDeclaration hd hdefault
    | false =>
      simp only [hd, hdefault, Option.ite_none_right_eq_some, Option.some.injEq,
        h.mem_declaredNames_iff hs hd] at hmeaning
      obtain ⟨⟨hname, hentries⟩, rfl⟩ := hmeaning
      rw [(h.bound hs hvalues hd hdefault hname).localEntries] at hentries ⊢
      exact .declaration hd hdefault hname hentries
  | none =>
    cases hv : statement.child? .value with
    | none =>
      simp only [hd, hv] at hmeaning
      exact h.exportForm_of_listed hs hvalues hd (.inl hv) hmeaning
    | some v =>
      cases hdefault : statement.hasToken "default" with
      | false =>
        simp only [hd, hv, hdefault] at hmeaning
        exact h.exportForm_of_listed hs hvalues hd (.inr hdefault) hmeaning
      | true =>
        simp only [hd, hv, hdefault, defaultMeaning?, Option.ite_none_right_eq_some] at hmeaning
        obtain ⟨rfl, hmeaning⟩ := hmeaning
        split at hmeaning
        · next hname =>
          cases hmeaning
          have htype := beq_iff_eq.1 hname
          rw [(h.value hs hvalues hd hv hdefault htype rfl).meaningOf]
          exact .defaultName hd hv hdefault htype
        · next hname =>
          cases hmeaning
          exact .defaultValue hd hv hdefault (by simpa using hname)

/-- What one of its forms says an export statement is read as saying. -/
theorem ExportsPlainly.statementMeaning?_of_form (hsaid : f.Says statement name meaning) :
    f.statementMeaning? name statement = some meaning := by
  obtain ⟨htype, htypeOnly, hform⟩ := hsaid
  have hvalues := And.intro htype htypeOnly
  have hlisted : statement.child? .declaration = none →
      (statement.child? .value = none ∨ statement.hasToken "default" = false) →
      f.statementMeaning? name statement = f.listedMeaning? name statement := by
    intro hd hv
    unfold statementMeaning?
    rw [if_neg (by simp [htype, htypeOnly]), hd]
    rcases hv with hv | hdefault
    · rw [hv]
    · rw [hdefault]
      cases statement.child? .value <;> rfl
  have hread : ¬ (statement.type != "export_statement" || statement.isTypeOnly) = true := by
    simp [htype, htypeOnly]
  cases hform with
  | defaultDeclaration hd hdefault =>
    unfold statementMeaning?
    rw [if_neg hread, hd, hdefault]
    exact if_pos rfl
  | declaration hd hdefault hname hdeclared =>
    have hentries := (h.bound hs hvalues hd hdefault hname).localEntries
    unfold statementMeaning?
    rw [if_neg hread, hd, hdefault]
    dsimp only
    rw [hentries]
    exact if_pos ⟨(h.mem_declaredNames_iff hs hd).2 hname, hdeclared⟩
  | defaultName hd hv hdefault hname =>
    unfold statementMeaning? defaultMeaning?
    rw [if_neg hread, hd, hv, hdefault]
    dsimp only
    rw [if_pos rfl, if_pos (by simp [hname]),
      (h.value hs hvalues hd hv hdefault hname rfl).meaningOf]
  | defaultValue hd hv hdefault hname =>
    unfold statementMeaning? defaultMeaning?
    rw [if_neg hread, hd, hv, hdefault]
    dsimp only
    rw [if_pos rfl, if_neg (by simp [hname])]
  | relink hd hv hc hsource hlast =>
    rw [hlisted hd hv, listedMeaning?, hc, hsource]
    dsimp only
    rw [findSome?_specifierMeaning?, hlast]
    rfl
  | localName hd hv hc hsource hlast =>
    rw [hlisted hd hv, listedMeaning?, hc, hsource]
    dsimp only
    rw [findSome?_specifierMeaning?, hlast, Option.map_some,
      (h.specified hs hvalues hd hv hc hsource hlast).meaningOf]
  | wholeModule hd hv hc hsource hn hname =>
    rw [hlisted hd hv, listedMeaning?, hc, hsource, hn]
    exact if_pos hname

theorem ExportsPlainly.statementMeaning?_eq_some_iff :
    f.statementMeaning? name statement = some meaning ↔ f.Says statement name meaning :=
  ⟨h.says_of_statementMeaning? hs, h.statementMeaning?_of_form hs⟩

theorem ExportsPlainly.statementMeaning?_eq_none_iff :
    f.statementMeaning? name statement = none ↔ ∀ meaning, ¬ f.Says statement name meaning := by
  simp only [Option.eq_none_iff_forall_ne_some, ne_eq, h.statementMeaning?_eq_some_iff hs]

end plain

/-- What a file is read as exporting under a name is what it exports. -/
theorem ExportsPlainly.explicit?_eq_some_iff (h : f.ExportsPlainly name) :
    f.explicit? name = some meaning ↔ f.Exports name meaning := by
  unfold SourceFile.explicit?
  rw [List.findSome?_eq_some_iff]
  constructor
  · rintro ⟨after, statement, before, hsplit, hmeaning, hnone⟩
    have hstatements : f.root.namedChildren = before.reverse ++ statement :: after.reverse := by
      rw [← List.reverse_reverse f.root.namedChildren, hsplit]
      simp
    have hmem : statement ∈ f.root.namedChildren := by simp [hstatements]
    refine ⟨_, _, _, hstatements, (h.statementMeaning?_eq_some_iff hmem).1 hmeaning, ?_⟩
    intro later hlater
    have hmem' : later ∈ f.root.namedChildren := by simp [hstatements, List.mem_reverse.1 hlater]
    exact (h.statementMeaning?_eq_none_iff hmem').1 (hnone later (List.mem_reverse.1 hlater))
  · rintro ⟨before, statement, after, hstatements, hsaid, hnone⟩
    have hmem : ∀ t ∈ statement :: after, t ∈ f.root.namedChildren := by
      intro t ht
      rw [hstatements]
      exact List.mem_append_right before ht
    refine ⟨after.reverse, statement, before.reverse, by simp [hstatements],
      (h.statementMeaning?_eq_some_iff (hmem _ List.mem_cons_self)).2 hsaid, fun later hlater => ?_⟩
    have hlater := List.mem_reverse.1 hlater
    exact (h.statementMeaning?_eq_none_iff (hmem _ (List.mem_cons_of_mem _ hlater))).2
      (hnone later hlater)

theorem ExportsPlainly.explicit?_eq_none_iff (h : f.ExportsPlainly name) :
    f.explicit? name = none ↔ ¬ f.ExportsName name := by
  unfold SourceFile.explicit? ExportsName
  rw [List.findSome?_eq_none_iff]
  simp only [not_exists, not_and]
  constructor
  · intro hnone statement hmem
    exact (h.statementMeaning?_eq_none_iff hmem).1 (hnone statement (List.mem_reverse.2 hmem))
  · intro hnone statement hmem
    have hmem := List.mem_reverse.1 hmem
    exact (h.statementMeaning?_eq_none_iff hmem).2 (hnone statement hmem)

section exportedUnder

variable {exported : String}

theorem localMeaning_eq (h : f.valueEntries name ≠ []) :
    f.localMeaning name = .own (f.valueEntries name) := by
  unfold localMeaning
  split
  · next hnil => exact absurd hnil h
  · rfl

/-- A statement that exports a local name with declarations says something. -/
theorem exists_says_of_localExports (h : (exported, name) ∈ f.localExports statement)
    (hvalue : f.valueEntries name ≠ []) : ∃ meaning, f.Says statement exported meaning := by
  by_cases hvalues : statement.type = "export_statement" ∧ statement.isTypeOnly = false
  swap
  · rw [localExports, if_neg hvalues] at h
    cases h
  have hlisted : statement.child? .declaration = none →
      (statement.child? .value = none ∨ statement.hasToken "default" = false) →
      ∃ meaning, f.Says statement exported meaning := by
    intro hd hv
    rw [localExports_listed hvalues hd hv] at h
    cases hc : statement.namedOfType? "export_clause" with
    | none => simp [hc] at h
    | some clause =>
      cases hsource : statement.child? .source with
      | some source => simp [hc, hsource] at h
      | none =>
        simp only [hc, hsource, List.mem_map] at h
        obtain ⟨t, ht, hnames⟩ := h
        have hsome : ((valueSpecifiers clause).find? fun t =>
            (f.specifierNames t).1 == exported).isSome :=
          List.find?_isSome.2 ⟨t, ht, by simp [hnames]⟩
        obtain ⟨last, hlast⟩ := Option.isSome_iff_exists.1 hsome
        exact ⟨_, hvalues.1, hvalues.2, .localName hd hv hc hsource hlast⟩
  cases hd : statement.child? .declaration with
  | some d =>
    rw [localExports_declaration hvalues hd] at h
    cases hdefault : statement.hasToken "default" with
    | true => simp [hdefault] at h
    | false =>
      simp only [hdefault, Bool.false_eq_true, if_false, List.mem_map] at h
      obtain ⟨other, hname, hsame⟩ := h
      cases hsame
      exact ⟨_, hvalues.1, hvalues.2, .declaration hd hdefault hname hvalue⟩
  | none =>
    cases hv : statement.child? .value with
    | none => exact hlisted hd (.inl hv)
    | some v =>
      cases hdefault : statement.hasToken "default" with
      | false => exact hlisted hd (.inr hdefault)
      | true =>
        rw [localExports_value hvalues hd hv hdefault] at h
        by_cases htype : v.type = "identifier"
        · rw [if_pos htype, List.mem_singleton] at h
          cases h
          exact ⟨_, hvalues.1, hvalues.2, .defaultName hd hv hdefault htype⟩
        · rw [if_neg htype] at h
          cases h

/-- What a statement says that exports one local name under the exported one. -/
theorem Says.eq_own (hsaid : f.Says statement exported meaning)
    (h : (exported, name) ∈ f.localExports statement)
    (honly : ∀ e ∈ f.localExports statement, e.1 = exported → e.2 = name)
    (hvalue : f.valueEntries name ≠ []) : meaning = .own (f.valueEntries name) := by
  obtain ⟨htype, htypeOnly, hform⟩ := hsaid
  have hvalues := And.intro htype htypeOnly
  cases hform with
  | defaultDeclaration hd hdefault =>
    rw [localExports_declaration hvalues hd, hdefault] at h
    cases h
  | declaration hd hdefault hname =>
    rw [localExports_declaration hvalues hd, hdefault] at honly
    have hsame : exported = name := honly (exported, exported) (List.mem_map_of_mem hname) rfl
    rw [hsame]
  | defaultName hd hv hdefault hidentifier =>
    rw [localExports_value hvalues hd hv hdefault, if_pos hidentifier] at honly
    have hsame : f.text _ = name := honly _ (List.mem_singleton_self _) rfl
    rw [hsame, localMeaning_eq hvalue]
  | defaultValue hd hv hdefault hother =>
    rw [localExports_value hvalues hd hv hdefault, if_neg hother] at h
    cases h
  | relink hd hv hc hsource =>
    rw [localExports_listed hvalues hd hv, hc, hsource] at h
    cases h
  | localName hd hv hc hsource hlast =>
    rw [localExports_listed hvalues hd hv, hc, hsource] at honly
    have hmem := List.mem_map_of_mem (f := f.specifierNames) (List.mem_of_find?_eq_some hlast)
    rw [honly _ hmem (by simpa using List.find?_some hlast), localMeaning_eq hvalue]
  | wholeModule hd hv hc =>
    rw [localExports_listed hvalues hd hv, hc] at h
    cases h

/-- A local name with declarations that is exported under a name, and in no other way, stands there
for its declarations. -/
theorem IsExportedUnder.explicit?_eq (h : f.IsExportedUnder name exported)
    (hplain : f.ExportsPlainly exported) (hvalue : f.valueEntries name ≠ []) :
    f.explicit? exported = some (.own (f.valueEntries name)) := by
  have hexports : f.ExportsName exported := by
    obtain ⟨statement, hmem, hlocal⟩ := h.stated
    exact ⟨statement, hmem, exists_says_of_localExports hlocal hvalue⟩
  cases hread : f.explicit? exported with
  | none => exact absurd hexports (hplain.explicit?_eq_none_iff.1 hread)
  | some meaning =>
    obtain ⟨before, statement, after, hstatements, hsaid, -⟩ := hplain.explicit?_eq_some_iff.1 hread
    obtain ⟨hlocal, honly⟩ := h.only statement (by simp [hstatements]) meaning hsaid
    rw [hsaid.eq_own hlocal honly hvalue]

/-- It is enough to see that of the statements that are read as saying anything. -/
theorem ExportsPlainly.isExportedUnder (h : f.ExportsPlainly exported)
    (hstated : ∃ statement ∈ f.root.namedChildren, (exported, name) ∈ f.localExports statement)
    (honly : ∀ statement ∈ f.root.namedChildren, (f.statementMeaning? exported statement).isSome →
      (exported, name) ∈ f.localExports statement ∧
        ∀ e ∈ f.localExports statement, e.1 = exported → e.2 = name) :
    f.IsExportedUnder name exported where
  stated := hstated
  only statement hs _ hsaid :=
    honly statement hs (Option.isSome_of_mem ((h.statementMeaning?_eq_some_iff hs).2 hsaid))

end exportedUnder

end DeferredImports.SourceFile
