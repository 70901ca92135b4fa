import DeferredImports.Project.Compile
import DeferredImports.Proofs.ProgramOracle
import DeferredImports.Proofs.QueryHistory
import DeferredImports.Proofs.Splice
import DeferredImports.Proofs.StatementPlans

/-! How the compilation of a program ends. Main statement: with hooks that can be printed no failure
to find, read, resolve or print anything comes out of it, and it puts out one text for each source
file that is no declaration file. -/

namespace DeferredImports

/-- Something cannot be read, resolved, printed or found. -/
def Failure.IsOfHost : Failure → Prop
  | parsing _ | resolution _ | emit _ | unknownFile _ => True
  | _ => False

namespace Node

theorem mapM_printStatement_ok {ss : List Node} (h : ∀ s ∈ ss, s.IsPrintableStatement)
    (trivia : String) : ∃ lines, ss.mapM (printStatement trivia) = .ok lines := by
  apply exists_mapM_eq_ok
  intro s hs
  obtain ⟨⟨text, htext⟩, hlacks⟩ := h s hs
  exact ⟨_, printStatement_eq htext hlacks trivia⟩

theorem printModule_ok {ss : List Node} (h : ∀ s ∈ ss, s.IsPrintableStatement)
    (newline path trailing : String) :
    ∃ text, printModule newline (.sourceModule path (some ss) (some trailing)) = .ok text := by
  have hstatements : ∃ text, printStatements newline ss = .ok text := by
    cases ss with
    | nil => exact ⟨"", rfl⟩
    | cons s ss =>
      obtain ⟨⟨text, htext⟩, hlacks⟩ := h s List.mem_cons_self
      obtain ⟨lines, hlines⟩ :=
        mapM_printStatement_ok (fun t ht => h t (List.mem_cons_of_mem s ht)) newline
      rw [printStatements, printStatement_eq htext hlacks, hlines]
      exact ⟨_, rfl⟩
  obtain ⟨text, htext⟩ := hstatements
  refine ⟨text ++ trailing, ?_⟩
  simp only [printModule, statements, items, htext, bind, Except.bind]
  rfl

end Node

variable {ω σ : Type} {oracle : Oracle ω σ} {options : Options} {file : String}
  {Sound : σ → Prop} {Known : ExportedSymbol ω → Prop}

theorem planned_printable {ss : List Node} {plans : List (Option Plan)}
    (hss : ∀ s ∈ ss, s.IsPrintableStatement)
    (hplans : ∀ plan ∈ plans, ∀ made, plan = some made →
      ∀ s ∈ made.statements, s.IsPrintableStatement) :
    ∀ s ∈ planned ss plans, s.IsPrintableStatement := by
  intro x hx
  obtain ⟨s, plan, hmem, hx⟩ := mem_planned.1 hx
  obtain ⟨hs, hplan⟩ := List.of_mem_zip hmem
  cases plan with
  | none => exact List.mem_singleton.1 hx ▸ hss s hs
  | some made => exact hplans _ hplan made rfl x hx

namespace SourceFile

theorem isPrintable_of_mem_statementsFrom {f : SourceFile} {start : Nat} {ts : List ParseTree}
    {s : Node} (hs : s ∈ (f.statementsFrom start ts).1) : s.IsPrintableStatement := by
  obtain ⟨t, trivia, rfl⟩ := exists_of_mem_statementsFrom hs
  obtain ⟨hprint, hlacks, -⟩ := f.print_statement t trivia
  exact ⟨⟨_, hprint⟩, hlacks⟩

/-- Whatever a transformation makes of a file can be printed. -/
theorem transform_printable (hcontract : oracle.KeepsContract Sound Known) (f : SourceFile)
    (hprintable : Plan.InjectsPrintable options f.path)
    (hw : options.wrapperExpression.IsPrintable) (newline : String) :
    (transform oracle options f.toModule).YieldsOr (Sound ·.oracle)
      (fun changed => ∃ text, Node.printModule newline (changed.getD f.toModule) = .ok text)
      (Plan.InjectsMisfit options f.path) := by
  have hplain : ImportsPlain (f.statementsFrom 0 f.root.children).1 := fun d hd =>
    isPlain_of_mem_statementsFrom hd (Node.import?_eq_some.2 rfl)
  have hss : ∀ s ∈ (f.statementsFrom 0 f.root.children).1, s.IsPrintableStatement :=
    fun s hs => isPrintable_of_mem_statementsFrom hs
  refine (hplain.transform_yieldsOr (hplain.plansFor_yieldsOr hcontract) _).mono ?_ fun _ he => he
  intro changed hchanged
  cases changed with
  | none => exact Node.printModule_ok hss newline _ _
  | some m =>
    obtain ⟨plans, hplans, rfl⟩ := hchanged m rfl
    apply Node.printModule_ok (planned_printable hss ?_)
    intro plan hplan made hmade s hs
    obtain ⟨i, rfl | ⟨names, hdefers⟩⟩ := hplans plan hplan made hmade
    · exact List.mem_singleton.1 hs ▸ Node.isPrintable_toStatement i
    · obtain ⟨_, _, _, _, _, hall⟩ := hdefers.statements_printable hprintable hw
      exact hall s hs

end SourceFile

namespace Project

/-- The file gets a new text. -/
def isCompiled (path : String) : Bool := isSource path && !Text.ends ".d.ts" path

variable {p : Project}

theorem sourceFile_yields {path : String} {f : SourceFile} (hf : p.read path = .ok f) :
    Effect.Yields (Session.require (p.sourceFile path)) (p.IsSound ·.oracle) (· = f) :=
  Session.yields_require fun s hs => ⟨hs, (p.load_ends path ⟨s.loaded, []⟩).trans hf⟩

/-- A file of a program has a text after its compilation if it is to have one. -/
theorem compileFile_yieldsOr (hr : p.IsReadable) (hn : p.IsNormal)
    (hprintable : ∀ file, Plan.InjectsPrintable options file)
    (hw : options.wrapperExpression.IsPrintable) {path : String} (hpath : path ∈ p.fileNames) :
    (p.compileFile options path).YieldsOr (p.IsSound ·.oracle) (·.isSome = isCompiled path)
      (Plan.InjectsMisfit options path) := by
  unfold compileFile
  cases hsource : isSource path with
  | false => exact .pure (by simp [isCompiled, hsource])
  | true =>
    have hcontains : p.files.contains path := Table.contains_iff.2 hpath
    obtain ⟨f, hf⟩ := hr path hcontains hsource
    have hfile : f.path = path := (path_of_read hf).trans (hn path hcontains)
    have hdeclares : f.toModule.isDeclarationFile = .ok (Text.ends ".d.ts" path) := by
      rw [← hfile]
      rfl
    refine (sourceFile_yields hf).bind_yieldsOr ?_
    intro g hg
    rw [hg]
    refine .ofExcept_bind hdeclares ?_
    cases hends : Text.ends ".d.ts" path with
    | true => exact .pure (by simp [isCompiled, hends])
    | false =>
      have htransform := f.transform_printable (oracle_keepsContract hr hn) (hprintable f.path) hw
        "\n"
      rw [hfile] at htransform
      refine htransform.bind ?_
      rintro changed ⟨text, htext⟩
      refine .ofExcept_bind htext ?_
      exact .pure (by simp [isCompiled, hsource, hends])

theorem compileFiles_yieldsOr (hr : p.IsReadable) (hn : p.IsNormal)
    (hprintable : ∀ file, Plan.InjectsPrintable options file)
    (hw : options.wrapperExpression.IsPrintable) {paths : List String}
    (hpaths : ∀ path ∈ paths, path ∈ p.fileNames) :
    (p.compileFiles options paths).YieldsOr (p.IsSound ·.oracle)
      (·.map Prod.fst = paths.filter isCompiled)
      (fun e => ∃ path, Plan.InjectsMisfit options path e) := by
  induction paths with
  | nil => exact .pure rfl
  | cons path paths ih =>
    obtain ⟨hpath, hothers⟩ := List.forall_mem_cons.1 hpaths
    unfold compileFiles
    refine ((compileFile_yieldsOr hr hn hprintable hw hpath).mono (fun _ h => h)
      fun e he => ⟨path, he⟩).bind ?_
    intro text htext
    refine (ih hothers).bind fun others hnames => .pure ?_
    rw [List.filter_cons, ← htext, List.map_append, hnames]
    cases text <;> rfl

/-- With trees for all files in known languages, and hooks that can be printed, no failure of the
host comes out of a compilation. Injected imports cannot make it fail at all. When it ends with
texts, there is exactly one for each source file that is no declaration file, under its normal
path. -/
theorem compile_outcome (files : List (String × FileContent)) (options : Options)
    (htrees : ∀ f ∈ files, isSource (Path.normalize f.1) → f.2.tree.isSome)
    (hw : options.wrapperExpression.IsPrintable)
    (hprintable : ∀ file, Plan.InjectsPrintable options file) (trace : List Action) :
    (∀ e, ((compile files options).runFrom ⟨trace, {}⟩).1 = .error e → ¬ e.IsOfHost) ∧
    ((∀ file, Plan.InjectsImports options file) →
      ∃ outputs, ((compile files options).runFrom ⟨trace, {}⟩).1 = .ok outputs) ∧
    ∀ outputs, ((compile files options).runFrom ⟨trace, {}⟩).1 = .ok outputs →
      (outputs.map Prod.fst).Nodup ∧ ∀ path, path ∈ outputs.map Prod.fst ↔
        (∃ f ∈ files, Path.normalize f.1 = path) ∧ isSource path ∧
          Text.ends ".d.ts" path = false := by
  have hcompile : (compile files options).YieldsOr ((ofFiles files).IsSound ·.oracle)
      (·.map Prod.fst = (ofFiles files).fileNames.filter isCompiled)
      (fun e => ∃ path, Plan.InjectsMisfit options path e) := by
    unfold compile
    refine (compileFiles_yieldsOr (isReadable_ofFiles htrees) (isNormal_ofFiles files) hprintable hw
      fun path hpath => hpath).bind fun outputs houtputs => ?_
    exact (Session.yields_log _).bind_yieldsOr fun _ _ => .pure houtputs
  rcases hcompile ⟨trace, {}⟩ (isSound_initial _) with
    ⟨outputs, q, hrun, -, houtputs⟩ | ⟨e, q, hrun, path, hunfit, hmisfit⟩
  · rw [hrun]
    refine ⟨fun e he => (nomatch he), fun _ => ⟨outputs, rfl⟩, ?_⟩
    rintro _ ⟨⟩
    rw [houtputs]
    refine ⟨(Table.nodup_ofList _).filter _, fun path => ?_⟩
    rw [List.mem_filter, mem_fileNames_ofFiles]
    simp [isCompiled]
  · subst hunfit
    rw [hrun]
    refine ⟨?_, fun hinjects => absurd ⟨rfl, hmisfit⟩ ((hinjects path).not_misfit _), ?_⟩
    · rintro _ ⟨⟩
      exact id
    · exact fun _ h => nomatch h

/-- Two names of one file, which imports a module whose exports lead back to themselves; a
declaration file; and a file in no known language. -/
def circularFiles : List (String × FileContent) :=
  let app : FileContent := ⟨SourceFile.panelFile.content, some (false, SourceFile.panelFile.root)⟩
  let circular : FileContent :=
    ⟨"export \x7b x \x7d from './b';\nconst y = 1;\nexport \x7b y \x7d;\n",
      some (false, mutualTree)⟩
  [("./app.tsx", app), ("src/../app.tsx", app), ("panel.ts", circular), ("b.ts", circular),
    ("types.d.ts", ⟨"const x = 1;\nexport \x7b x \x7d;\n", some (false, constantTree)⟩),
    ("readme.md", ⟨"", none⟩)]

theorem compile_outcome_circular :
    (∀ f ∈ circularFiles, isSource (Path.normalize f.1) → f.2.tree.isSome) ∧
      ({} : Options).wrapperExpression.IsPrintable ∧
      (∀ file, Plan.InjectsPrintable {} file) ∧ ∃ outputs,
        ((compile circularFiles {}).runFrom ⟨[], {}⟩).1 = .ok outputs ∧
        (outputs.map Prod.fst).Nodup ∧ "app.tsx" ∈ outputs.map Prod.fst ∧
        "types.d.ts" ∉ outputs.map Prod.fst ∧ "readme.md" ∉ outputs.map Prod.fst := by
  have htrees : ∀ f ∈ circularFiles, isSource (Path.normalize f.1) → f.2.tree.isSome := by decide
  have hw : ({} : Options).wrapperExpression.IsPrintable := ⟨"React.lazy", rfl⟩
  have hprintable : ∀ file, Plan.InjectsPrintable {} file := fun file n hn => nomatch hn
  have hinjects : ∀ file, Plan.InjectsImports {} file := fun file n hn => nomatch hn
  obtain ⟨-, hok, hnames⟩ := compile_outcome circularFiles {} htrees hw hprintable []
  obtain ⟨outputs, houtputs⟩ := hok hinjects
  obtain ⟨hnodup, hmem⟩ := hnames outputs houtputs
  refine ⟨htrees, hw, hprintable, outputs, houtputs, hnodup, ?_, ?_, ?_⟩
  · exact (hmem "app.tsx").2 ⟨⟨_, List.mem_cons_self, by decide⟩, by decide, by decide⟩
  · exact fun h => absurd ((hmem "types.d.ts").1 h).2.2 (by decide)
  · exact fun h => absurd ((hmem "readme.md").1 h).2.1 (by decide)

end Project

end DeferredImports
