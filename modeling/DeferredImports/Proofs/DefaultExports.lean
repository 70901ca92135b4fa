import DeferredImports.Proofs.FoundNames
import DeferredImports.Proofs.Overloads
import DeferredImports.Proofs.ProgramOracle
import DeferredImports.Proofs.Relocation
import DeferredImports.Proofs.Verdict

/-! The spellings of a default export: on the declarations themselves, or of their name, as the
default value or in braces. Main statement: the two that say the name agree in all that a program
tells of the default export, and the one on the declarations agrees with them exactly if the last
declaration stands for all declarations of the name. -/

namespace DeferredImports

namespace SourceFile

/-- The declaration is the last one that the file exports as its default, and nothing else is
exported so after it. -/
inductive IsInlineDefault (f : SourceFile) (declaration : ParseTree) : Prop
  | last {before after : List ParseTree} {statement d : ParseTree}
      (hstatements : f.root.namedChildren = before ++ statement :: after)
      (htype : statement.type = "export_statement") (hvalue : statement.isTypeOnly = false)
      (hdefault : statement.hasToken "default" = true)
      (hd : statement.child? .declaration = some d) (hambient : d.unwrapAmbient? = some declaration)
      (hafter : ∀ t ∈ after, f.statementMeaning? "default" t = none)

/-- The declaration stands for all declarations of the name: it is a class and the only one; or all
are functions, the first of them has its parameters, and its call signature is the only one that can
be called. -/
def StandsForAll (f : SourceFile) (name : String) (d : ParseTree) : Prop :=
  d.isClass ∧ f.declarationsOf name = [d] ∨
    d.isFunctionDeclaration ∧ ∃ first others, f.declarationsOf name = first :: others ∧
      (∀ t ∈ first :: others, t.isFunctionDeclaration) ∧ f.parameters first = f.parameters d ∧
      (ParseTree.callableSignatures (first :: others)).map f.callSignature = [f.callSignature d]

/-- What is told of a symbol with these entries: its declarations, and the type of a single one. -/
def told (f : SourceFile) (entries : List Entry) : List Node × Option TypeHandle :=
  (entries.map Entry.declaration,
    match entries with
    | [e] => some (f.declaredType e.origin.node e.origin.signatures)
    | _ => none)

variable {f g : SourceFile} {name : String} {d : ParseTree}

theorem IsInlineDefault.explicit? (h : f.IsInlineDefault d) :
    f.explicit? "default" =
      some (.own [f.entry d (if d.isFunctionDeclaration then [d] else [])]) := by
  obtain @⟨before, after, statement, d', hstatements, htype, hvalue, hdefault, hd, hambient,
    hafter⟩ := h
  have hlast : f.statementMeaning? "default" statement =
      some (.own [f.entry d (if d.isFunctionDeclaration then [d] else [])]) := by
    unfold statementMeaning?
    rw [if_neg (by simp [htype, hvalue])]
    simp only [hd, hdefault, if_true, ownEntry, hambient, Option.getD_some]
  have hnone : after.reverse.findSome? (f.statementMeaning? "default") = none :=
    List.findSome?_eq_none_iff.2 fun t ht => hafter t (List.mem_reverse.1 ht)
  rw [SourceFile.explicit?, hstatements, List.reverse_append, List.reverse_cons,
    List.findSome?_append, List.findSome?_append, hnone, List.findSome?_singleton, hlast]
  rfl

/-- Entries of declarations that differ at most in where they stand tell the same. -/
theorem told_alike {entries others : List Entry}
    (h : List.Forall₂ (EntryAlike f g) entries others) : f.told entries = g.told others := by
  have hdeclarations : entries.map Entry.declaration = others.map Entry.declaration :=
    map_eq_of_forall₂ h fun _ _ he => he.declaration
  unfold told
  rw [hdeclarations]
  cases h with
  | nil => rfl
  | cons he hrest =>
    cases hrest with
    | nil =>
      dsimp only
      rw [he.node.declaredType he.signatures]
    | cons => rfl

/-- A class that is the only declaration of its name has one entry. -/
theorem localEntries_class (hd : d.isClass) (h : f.declarationsOf name = [d]) :
    f.localEntries name = [f.entry d []] := by
  have hmem : d ∈ f.declarationsOf name := by simp [h]
  have hentered := mem_enteredNames_of_mem hmem
  have hfunction : ¬ d.isFunctionDeclaration := fun hfunction => by
    simp [not_isClass hfunction] at hd
  have hvariable : ¬ d.isVariableStatement := by simp [not_isVariableStatement_of_isClass hd]
  unfold enteredNames at hentered
  rw [if_neg hvariable, if_neg hfunction] at hentered
  obtain ⟨n, hn, hname⟩ := Option.map_eq_some_iff.1 (Option.mem_toList.1 hentered)
  rw [localEntries_eq, h, entriesAfter_other hfunction, otherEntries, if_neg hvariable, hn]
  simp [entriesAfter, hname]

/-- The last declaration by itself tells the same as all declarations of the name exactly if it
stands for all of them. -/
theorem told_entry_eq_iff (hd : d ∈ f.declarationsOf name)
    (hkind : d.isClass ∨ d.isFunctionDeclaration) :
    f.told [f.entry d (if d.isFunctionDeclaration then [d] else [])] =
      f.told (f.localEntries name) ↔ f.StandsForAll name d := by
  have hfunctions : ∀ first others, f.declarationsOf name = first :: others →
      (∀ t ∈ first :: others, t.isFunctionDeclaration) → d.isFunctionDeclaration →
      (f.told [f.entry d [d]] = f.told (f.localEntries name) ↔
        f.parameters first = f.parameters d ∧
          (ParseTree.callableSignatures (first :: others)).map f.callSignature =
            [f.callSignature d]) := by
    intro first others hdeclarations hall hfunction
    have hfirst := hall first List.mem_cons_self
    have hmem : first ∈ f.declarationsOf name := by simp [hdeclarations]
    have hname : f.nameOf? (first.child? .name) = f.nameOf? (d.child? .name) := by
      have hnames := (declaredName_of_mem hmem hfirst).trans (declaredName_of_mem hd hfunction).symm
      exact congrArg (fun name => (some name).filter (· ≠ "")) hnames
    rw [localEntries_functions hdeclarations hall]
    simp only [told, entry, List.map_cons, List.map_nil, declaration_function hfirst,
      declaration_function hfunction, declaredType_function hfunction (List.cons_ne_nil d []),
      declaredType_function hfirst (callableSignatures_ne_nil first others), hname,
      Prod.mk.injEq, List.cons.injEq, Node.functionDeclaration.injEq, Option.some.injEq,
      TypeHandle.mk.injEq, and_true, true_and]
    exact and_congr eq_comm eq_comm
  constructor
  · intro h
    -- one declaration is told, so that the name has one entry
    obtain ⟨e, he⟩ : ∃ e, f.localEntries name = [e] := by
      have hlength := congrArg (fun told => told.1.length) h
      simp only [told, List.length_map, List.length_singleton] at hlength
      exact List.length_eq_one_iff.1 hlength.symm
    have hdeclarations := functions_or_single_of_localEntries he hd
    by_cases hfunction : d.isFunctionDeclaration
    · have hall : ∀ t ∈ f.declarationsOf name, t.isFunctionDeclaration := by
        rcases hdeclarations with hall | hsingle
        · exact hall
        · simp [hsingle, hfunction]
      obtain ⟨first, others, hcons⟩ := List.exists_cons_of_ne_nil (List.ne_nil_of_mem hd)
      rw [hcons] at hall
      rw [if_pos hfunction] at h
      exact .inr ⟨hfunction, first, others, hcons, hall,
        (hfunctions first others hcons hall hfunction).1 h⟩
    · refine .inl ⟨hkind.resolve_right hfunction, hdeclarations.resolve_left fun hall => ?_⟩
      exact hfunction (hall d hd)
  · rintro (⟨hclass, hsingle⟩ | ⟨hfunction, first, others, hdeclarations, hall, hsame⟩)
    · have hfunction : ¬ d.isFunctionDeclaration := fun hfunction => by
        simp [not_isClass hfunction] at hclass
      rw [if_neg hfunction, localEntries_class hclass hsingle]
    · rw [if_pos hfunction]
      exact (hfunctions first others hdeclarations hall hfunction).2 hsame

end SourceFile

namespace Project

variable {p q r : Project} {specifier specifier' specifier'' file file' file'' name : String}
  {s s' s'' : ProjectState} {f g h : SourceFile}

/-- In a state that the program has reached, the specifier names a module that is read as the file,
and whose search is not linked back. -/
structure CanAnswer (p : Project) (specifier file : String) (s : ProjectState) (f : SourceFile) :
    Prop where
  readable : p.IsReadable
  normal : p.IsNormal
  reached : p.Reached s
  module : ∃ m, p.resolve? specifier file = some m ∧ p.read m = .ok f ∧ ¬ p.LinksBack m

/-- Of a name that stands for declarations of the file, a program tells what these tell. -/
theorem CanAnswer.told_own (ha : p.CanAnswer specifier file s f) {entries : List Entry}
    (hown : f.explicit? name = some (.own entries))
    (hfile : ∀ e ∈ entries, e.origin.file = f.path) :
    p.told specifier name file s = some ((f.told entries).1, .ok (f.told entries).2) := by
  obtain ⟨m, hm, hf, hback⟩ := ha.module
  rcases exportsOf_own ha.readable ha.reached hm hf hown with ⟨found, houtcome, hsymbol⟩ | ⟨h, -⟩
  · rw [told_of_found houtcome hsymbol]
    refine congrArg (fun type => some (entries.map Entry.declaration, type)) ?_
    match entries, hfile with
    | [], _ => exact outcome_typeOf _ _ _
    | _ :: _ :: _, _ => exact outcome_typeOf _ _ _
    | [⟨declaration, origin, node, signatures⟩], hfile =>
      obtain rfl : origin = f.path := hfile _ List.mem_cons_self
      exact outcome_typeOf_own ha.normal (contains_of_resolve? hm).1 hf _ _ _ _ _
  · exact absurd h hback

/-- Entries of the file itself are told of a name that the file exports in one way. -/
theorem CanAnswer.told_exported (ha : p.CanAnswer specifier file s f) {exported : String}
    (he : f.IsExportedAs name exported) (hentries : f.localEntries name ≠ []) :
    p.told specifier exported file s =
      some ((f.told (f.localEntries name)).1, .ok (f.told (f.localEntries name)).2) :=
  ha.told_own (he.meaning hentries) fun _ hentry =>
    (SourceFile.describes_of_mem_localEntries hentry).2

/-- A function or a class that one file exports by default on its declarations, the last one being
`d`, and that two files export by its name, as the default value or in braces. The two tell the
same of the default export, and so does the first exactly if `d` stands for all declarations of the
name, as a single declaration does. What tells the same is classified the same. -/
theorem told_default_spellings {name : String} {d : ParseTree}
    (ha : p.CanAnswer specifier file s f) (hb : q.CanAnswer specifier' file' s' g)
    (hc : r.CanAnswer specifier'' file'' s'' h) (hinline : f.IsInlineDefault d)
    (hd : d ∈ f.declarationsOf name) (hkind : d.isClass ∨ d.isFunctionDeclaration)
    (hg : g.IsExportedAs name "default") (hh : h.IsExportedAs name "default")
    (hfg : List.Forall₂ (SourceFile.Alike f g) (f.declarationsOf name) (g.declarationsOf name))
    (hfh : List.Forall₂ (SourceFile.Alike f h) (f.declarationsOf name) (h.declarationsOf name)) :
    (p.told specifier "default" file s).isSome ∧ (q.told specifier' "default" file' s').isSome ∧
      q.told specifier' "default" file' s' = r.told specifier'' "default" file'' s'' ∧
      (p.told specifier "default" file s = q.told specifier' "default" file' s' ↔
        f.StandsForAll name d) ∧
      (f.declarationsOf name = [d] → f.StandsForAll name d) ∧
      (p.told specifier "default" file s = q.told specifier' "default" file' s' →
        ∀ framework trace trace',
          ((p.oracle.isComponent framework specifier "default" file).runFrom ⟨trace, s⟩).1 =
            ((q.oracle.isComponent framework specifier' "default" file').runFrom
              ⟨trace', s'⟩).1) := by
  have hspelled : ∀ {g : SourceFile} {q : Project} {specifier file : String} {s : ProjectState},
      q.CanAnswer specifier file s g → g.IsExportedAs name "default" →
      List.Forall₂ (SourceFile.Alike f g) (f.declarationsOf name) (g.declarationsOf name) →
      q.told specifier "default" file s =
        some ((f.told (f.localEntries name)).1, .ok (f.told (f.localEntries name)).2) := by
    intro g q specifier file s hq hg hsame
    obtain ⟨t, ht, -⟩ := SourceFile.Alike.exists_mem hsame hd
    rw [hq.told_exported hg (SourceFile.localEntries_ne_nil ht),
      ← SourceFile.told_alike (SourceFile.localEntries_alike hsame)]
  have hp := ha.told_own hinline.explicit? fun _ he => by
    rw [List.mem_singleton.1 he]
    rfl
  have hq := hspelled hb hg hfg
  refine ⟨by rw [hp]; rfl, by rw [hq]; rfl, hq.trans (hspelled hc hh hfh).symm, ?iff, ?single,
    ?verdict⟩
  case iff =>
    rw [hp, hq, ← SourceFile.told_entry_eq_iff hd hkind, Option.some.injEq, Prod.mk.injEq,
      Except.ok.injEq, ← Prod.ext_iff]
  case single =>
    intro hsingle
    rcases hkind with hclass | hfunction
    · exact .inl ⟨hclass, hsingle⟩
    · refine .inr ⟨hfunction, d, [], hsingle, by simpa using hfunction, rfl, ?_⟩
      unfold ParseTree.callableSignatures
      by_cases hsignature : d.type = "function_signature" <;> simp [hsignature]
  case verdict =>
    intro hsame framework trace trace'
    rw [outcome_isComponent_of_told hp, outcome_isComponent_of_told (hsame ▸ hp)]

/-- The tree of an export from an offset on. -/
def exportTree (start stop : Nat) (child : ParseTree) (fields : List (TreeField × Nat)) :
    ParseTree :=
  ⟨"export_statement", true, false, start, stop,
    [⟨"export", false, false, start, start + 6, [], []⟩,
      ⟨"default", false, false, start + 7, start + 14, [], []⟩, child], fields⟩

def inlineFile : SourceFile :=
  ⟨"inline.ts", "typescript", "export default function P(p): JSX.Element;\n" ++
      "export default function P(p, q, r) \x7b return p; \x7d\n", false,
    ⟨"program", true, false, 0, 92,
      [exportTree 0 42 (elementSignature 15) [(.declaration, 2)],
        exportTree 43 91 (implementationTree 58) [(.declaration, 2)]], []⟩⟩

def valueFile : SourceFile :=
  ⟨"value.ts", "typescript", "function P(p): JSX.Element;\n" ++
      "function P(p, q, r) \x7b return p; \x7d\nexport default P;\n", false,
    ⟨"program", true, false, 0, 80, [elementSignature 0, implementationTree 28,
      exportTree 62 79 ⟨"identifier", true, false, 77, 78, [], []⟩ [(.value, 2)]], []⟩⟩

def bracesFile : SourceFile :=
  ⟨"braces.ts", "typescript", "function P(p): JSX.Element;\n" ++
      "function P(p, q, r) \x7b return p; \x7d\nexport \x7b P as default \x7d;\n", false,
    ⟨"program", true, false, 0, 87, [elementSignature 0, implementationTree 28,
      ⟨"export_statement", true, false, 62, 86, [⟨"export_clause", true, false, 69, 85,
        [⟨"export_specifier", true, false, 71, 83, [⟨"identifier", true, false, 71, 72, [], []⟩,
          ⟨"identifier", true, false, 76, 83, [], []⟩], [(.name, 0), (.newName, 1)]⟩], []⟩], []⟩],
      []⟩⟩

/-- The same overloaded function, exported by default in three ways. -/
def spellingsProgram : Project :=
  ofFiles ([inlineFile, valueFile, bracesFile].map fun f =>
    (f.path, ⟨f.content, some (false, f.root)⟩))

theorem spellingsProgram_declarations :
    inlineFile.declarationsOf "P" = [elementSignature 15, implementationTree 58] ∧
      valueFile.declarationsOf "P" = [elementSignature 0, implementationTree 28] ∧
      bracesFile.declarationsOf "P" = [elementSignature 0, implementationTree 28] := by
  have hinline : inlineFile.declaredValues = [elementSignature 15, implementationTree 58] := rfl
  have hvalue : valueFile.declaredValues = [elementSignature 0, implementationTree 28] := rfl
  have hbraces : bracesFile.declaredValues = [elementSignature 0, implementationTree 28] := rfl
  have hnames : ("P" ∈ inlineFile.enteredNames (elementSignature 15) ∧
        "P" ∈ inlineFile.enteredNames (implementationTree 58)) ∧
      ("P" ∈ valueFile.enteredNames (elementSignature 0) ∧
        "P" ∈ valueFile.enteredNames (implementationTree 28)) ∧
      "P" ∈ bracesFile.enteredNames (elementSignature 0) ∧
        "P" ∈ bracesFile.enteredNames (implementationTree 28) := by decide +kernel
  simp [SourceFile.declarationsOf, hinline, hvalue, hbraces, hnames]

theorem inlineFile_alike_valueFile :
    List.Forall₂ (inlineFile.Alike valueFile) (inlineFile.declarationsOf "P")
      (valueFile.declarationsOf "P") := by
  rw [spellingsProgram_declarations.1, spellingsProgram_declarations.2.1]
  exact .cons (by decide +kernel) (.cons (by decide +kernel) .nil)

theorem spellingsProgram_canAnswer {specifier : String} {f : SourceFile}
    (hm : spellingsProgram.resolve? specifier "app.ts" = some f.path)
    (hf : spellingsProgram.read f.path = .ok f) :
    spellingsProgram.CanAnswer specifier "app.ts" {} f where
  readable := isReadable_ofFiles (by decide)
  normal := isNormal_ofFiles _
  reached := .fresh
  module := by
    have hstars : spellingsProgram.IsStarOnly := isStarOnly_of_takenOver (by decide +kernel)
    obtain ⟨hcontains, hsource⟩ := contains_of_resolve? hm
    exact ⟨f.path, hm, hf, hstars.not_linksBack hcontains hsource⟩

theorem inlineFile_isInlineDefault : inlineFile.IsInlineDefault (implementationTree 58) := by
  have hstatements : inlineFile.root.namedChildren =
      [exportTree 0 42 (elementSignature 15) [(.declaration, 2)]] ++
        exportTree 43 91 (implementationTree 58) [(.declaration, 2)] :: [] := rfl
  exact .last hstatements rfl rfl rfl rfl rfl (List.forall_mem_nil _)

theorem valueFile_isExportedAs : valueFile.IsExportedAs "P" "default" := by
  have hstatements : valueFile.root.namedChildren =
      [elementSignature 0, implementationTree 28] ++
        [exportTree 62 79 ⟨"identifier", true, false, 77, 78, [], []⟩ [(.value, 2)]] := rfl
  refine SourceFile.isExportedAs_of_last hstatements ?_ (by decide +kernel)
    (.value rfl rfl rfl rfl (by decide +kernel) rfl)
  intro t ht
  simp only [List.mem_cons, List.not_mem_nil, or_false] at ht
  rcases ht with rfl | rfl <;> rfl

theorem bracesFile_isExportedAs : bracesFile.IsExportedAs "P" "default" := by
  have hstatements : bracesFile.root.namedChildren =
      [elementSignature 0, implementationTree 28] ++ [_] := rfl
  refine SourceFile.isExportedAs_of_last hstatements ?_ (by decide +kernel)
    (.braces rfl rfl rfl rfl (by decide +kernel) (by decide +kernel))
  intro t ht
  simp only [List.mem_cons, List.not_mem_nil, or_false] at ht
  rcases ht with rfl | rfl <;> rfl

/-- The implementation does not stand for the signature before it. -/
theorem inlineFile_not_standsForAll : ¬ inlineFile.StandsForAll "P" (implementationTree 58) := by
  rintro (⟨hclass, -⟩ | ⟨-, first, others, hdeclarations, -, hparameters, -⟩)
  · exact absurd hclass (by decide)
  · rw [spellingsProgram_declarations.1] at hdeclarations
    obtain ⟨rfl, -⟩ := List.cons.inj hdeclarations
    exact absurd (congrArg List.length hparameters) (by decide +kernel)

/-- The two spellings by name agree, and the one on the declarations does not. -/
theorem told_default_spellings_overloads :
    spellingsProgram.told "./value" "default" "app.ts" {} =
        spellingsProgram.told "./braces" "default" "app.ts" {} ∧
      spellingsProgram.told "./inline" "default" "app.ts" {} ≠
        spellingsProgram.told "./value" "default" "app.ts" {} := by
  have hinline : spellingsProgram.CanAnswer "./inline" "app.ts" {} inlineFile :=
    spellingsProgram_canAnswer (by decide) rfl
  have hvalue : spellingsProgram.CanAnswer "./value" "app.ts" {} valueFile :=
    spellingsProgram_canAnswer (by decide) rfl
  have hbraces : spellingsProgram.CanAnswer "./braces" "app.ts" {} bracesFile :=
    spellingsProgram_canAnswer (by decide) rfl
  obtain ⟨hdeclared, -, hdeclared'⟩ := spellingsProgram_declarations
  have hmem : implementationTree 58 ∈ inlineFile.declarationsOf "P" := by simp [hdeclared]
  have hsame : List.Forall₂ (inlineFile.Alike bracesFile) (inlineFile.declarationsOf "P")
      (bracesFile.declarationsOf "P") := by
    rw [hdeclared, hdeclared']
    exact .cons (by decide +kernel) (.cons (by decide +kernel) .nil)
  obtain ⟨-, -, hspelled, hiff, -⟩ := told_default_spellings hinline hvalue hbraces
    inlineFile_isInlineDefault hmem (.inr (by decide)) valueFile_isExportedAs
    bracesFile_isExportedAs inlineFile_alike_valueFile hsame
  exact ⟨hspelled, fun h => inlineFile_not_standsForAll (hiff.1 h)⟩

/-- A name that stands for one function is classified by the parameters of the function and the
first signature that can be called. -/
theorem CanAnswer.outcome_isComponent_function (ha : p.CanAnswer specifier file s f)
    {t : ParseTree} {signatures : List ParseTree} (ht : t.isFunctionDeclaration)
    (hs : signatures ≠ []) (hown : f.explicit? name = some (.own [f.entry t signatures]))
    (framework : Framework) (trace : List Action) :
    ((p.oracle.isComponent framework specifier name file).runFrom ⟨trace, s⟩).1 =
      .ok (((f.parameters t).length == 1 || (f.parameters t).length == 2) &&
        (signatures.map f.callSignature).head?.any (CallSignature.returnsElement framework)) := by
  obtain ⟨m, hm, hf, hback⟩ := ha.module
  rcases exportsOf_own ha.readable ha.reached hm hf hown with ⟨found, houtcome, hsymbol⟩ | ⟨h, -⟩
  · exact Project.outcome_isComponent_function ha.normal (contains_of_resolve? hm).1 hf ht hs
      houtcome hsymbol framework trace
  · exact absurd h hback

/-- Both files declare the same function, and export it by default. It is a component in the one
that says its name, and none in the one that says so on its declarations. -/
theorem spellingsProgram_disagrees :
    List.Forall₂ (inlineFile.Alike valueFile) (inlineFile.declarationsOf "P")
        (valueFile.declarationsOf "P") ∧
      inlineFile.IsInlineDefault (implementationTree 58) ∧
      valueFile.IsExportedAs "P" "default" ∧
      ∀ trace, ((spellingsProgram.oracle.isComponent {} "./inline" "default" "app.ts").runFrom
          ⟨trace, {}⟩).1 = .ok false ∧
        ((spellingsProgram.oracle.isComponent {} "./value" "default" "app.ts").runFrom
          ⟨trace, {}⟩).1 = .ok true := by
  obtain ⟨-, hdeclared, -⟩ := spellingsProgram_declarations
  have hinline : spellingsProgram.CanAnswer "./inline" "app.ts" {} inlineFile :=
    spellingsProgram_canAnswer (by decide) rfl
  have hvalue : spellingsProgram.CanAnswer "./value" "app.ts" {} valueFile :=
    spellingsProgram_canAnswer (by decide) rfl
  have hentries : valueFile.localEntries "P" =
      [valueFile.entry (elementSignature 0) [elementSignature 0]] :=
    SourceFile.localEntries_functions hdeclared (by simp [ParseTree.isFunctionDeclaration,
      elementSignature, implementationTree, overloadTree])
  have hown : valueFile.explicit? "default" =
      some (.own [valueFile.entry (elementSignature 0) [elementSignature 0]]) := by
    rw [← hentries]
    exact valueFile_isExportedAs.meaning (by simp [hentries])
  refine ⟨inlineFile_alike_valueFile, inlineFile_isInlineDefault, valueFile_isExportedAs,
    fun trace => ⟨?_, ?_⟩⟩
  · have hcount : (inlineFile.parameters (implementationTree 58)).length = 3 := by decide +kernel
    rw [hinline.outcome_isComponent_function (by decide) (List.cons_ne_nil _ [])
      inlineFile_isInlineDefault.explicit?, hcount]
    rfl
  · have hcount : (valueFile.parameters (elementSignature 0)).length = 1 := by decide +kernel
    have hsignature : valueFile.callSignature (elementSignature 0) = ⟨1, some .jsxElement⟩ := by
      decide +kernel
    rw [hvalue.outcome_isComponent_function (by decide) (List.cons_ne_nil _ []) hown, hcount,
      List.map_cons, hsignature]
    rfl

end Project

end DeferredImports
