import DeferredImports.Proofs.FoundNames
import DeferredImports.Proofs.Overloads
import DeferredImports.Proofs.TypeOnlyLinks

/-! Chains of links from an exported name to its declarations. Main statement: a name whose chains
all pass an export for types has no value, and neither has one whose chains pass any mark where the
exported imports are not marked; else a mark on an import changes nothing of what is found. -/

namespace DeferredImports

/-- One step of a chain: an export of the name, or a star, with the marks on it. -/
structure Hop where
  isStar : Bool
  marks : List TypeMark

/-- Whether the export that the step goes along is for types only. -/
def Hop.isErased (hop : Hop) : Bool := hop.marks.any TypeMark.isOnExport

namespace Project

/-- The chains of links from an exported name to declarations, whatever marks they pass: each step
goes along the last export of the name, or along a star if no export says what the name stands
for. -/
inductive Chain (p : Project) : String → String → List Hop → List Entry → Prop
  | own {m name : String} {f : SourceFile} {l : Link} {entries : List Entry} (hf : p.read m = .ok f)
      (hl : f.IsLast name l) (hown : l.meaning = .own entries) :
      Chain p m name [⟨false, l.marks⟩] entries
  | taken {m name specifier original target : String} {f : SourceFile} {l : Link}
      {hops : List Hop} {entries : List Entry} (hf : p.read m = .ok f) (hl : f.IsLast name l)
      (htaken : l.meaning = .taken specifier original)
      (hr : p.resolve? specifier m = some target) (rest : Chain p target original hops entries) :
      Chain p m name (⟨false, l.marks⟩ :: hops) entries
  | star {m name specifier target : String} {f : SourceFile} {marks : List TypeMark}
      {hops : List Hop} {entries : List Entry} (hf : p.read m = .ok f)
      (h : f.explicit? name = none) (hname : name ≠ "default")
      (hs : (marks, specifier) ∈ f.starLinks) (hr : p.resolve? specifier m = some target)
      (rest : Chain p target name hops entries) : Chain p m name (⟨true, marks⟩ :: hops) entries

/-- No export that is not for types exports what is imported for types only. -/
def HasNoMarkedImports (p : Project) : Prop :=
  ∀ m f, p.read m = .ok f → ∀ name, ∀ l ∈ f.links name, l.isErased = false → l.marks = []

/-- What is exported under the name, if anything is, has no declarations, and is no component. -/
structure HasNoValue (p : Project) (specifier name file : String) (s : ProjectState) : Prop where
  declarations : ∀ found symbol, (p.exportsOf specifier file s).outcome = .ok (some found) →
    found.find? (fun symbol => symbol.name == name) = some symbol → symbol.declarations = []
  noComponent : ∀ framework trace, ((p.oracle.isComponent framework specifier name file).runFrom
    ⟨trace, s⟩).1 = .ok false

variable {p : Project} {m name : String} {hops : List Hop} {entries : List Entry}

/-- Declarations that come from somewhere come along a chain without exports for types. -/
theorem Comes.exists_chain (h : p.Comes m name entries) (hentries : entries ≠ []) :
    ∃ hops, p.Chain m name hops entries ∧ ∀ hop ∈ hops, hop.isErased = false := by
  induction h with
  | own hf h =>
    obtain ⟨l, hl, hvalue, hmeaning⟩ := SourceFile.exists_isLast_of_explicit? h
    refine ⟨_, .own hf hl hmeaning, fun hop hhop => ?_⟩
    rw [List.mem_singleton.1 hhop]
    exact hvalue
  | missing => exact absurd rfl hentries
  | taken hf h hr _ ih =>
    obtain ⟨l, hl, hvalue, hmeaning⟩ := SourceFile.exists_isLast_of_explicit? h
    obtain ⟨hops, hchain, hhops⟩ := ih hentries
    exact ⟨_, .taken hf hl hmeaning hr hchain, List.forall_mem_cons.2 ⟨hvalue, hhops⟩⟩
  | star hf h hname hs hr _ ih =>
    obtain ⟨hops, hchain, hhops⟩ := ih hentries
    exact ⟨_, .star hf h hname (SourceFile.mem_starLinks_of_mem hs) hr hchain,
      List.forall_mem_cons.2 ⟨rfl, hhops⟩⟩

/-- Where a chain without stars passes no export for types, its first export says what the name
stands for. -/
theorem Chain.exists_explicit? (h : p.Chain m name hops entries)
    (hhops : ∀ hop ∈ hops, hop.isStar = false ∧ hop.isErased = false) :
    ∃ f meaning, p.read m = .ok f ∧ f.explicit? name = some meaning := by
  cases h with
  | own hf hl | taken hf hl => exact ⟨_, _, hf, hl.explicit? (hhops _ List.mem_cons_self).2⟩
  | star => cases (hhops _ List.mem_cons_self).1

/-- A chain without stars that passes no export for types is the only way to the name. -/
theorem Chain.eq_of_comes (h : p.Chain m name hops entries)
    (hhops : ∀ hop ∈ hops, hop.isStar = false ∧ hop.isErased = false) {found : List Entry}
    (hfound : p.Comes m name found) : found = entries := by
  induction h with
  | own hf hl hown =>
    have hsays := hl.explicit? (hhops _ List.mem_cons_self).2
    rw [hown] at hsays
    cases hfound with
    | own hf' h' =>
      obtain rfl := Except.ok.inj (hf.symm.trans hf')
      cases hsays.symm.trans h'
      rfl
    | missing hf' h' | taken hf' h' | star hf' h' =>
      obtain rfl := Except.ok.inj (hf.symm.trans hf')
      cases hsays.symm.trans h'
  | taken hf hl htaken hr rest ih =>
    have hsays := hl.explicit? (hhops _ List.mem_cons_self).2
    rw [htaken] at hsays
    have hrest := (List.forall_mem_cons.1 hhops).2
    cases hfound with
    | own hf' h' | star hf' h' =>
      obtain rfl := Except.ok.inj (hf.symm.trans hf')
      cases hsays.symm.trans h'
    | missing hf' h' hnone =>
      obtain rfl := Except.ok.inj (hf.symm.trans hf')
      cases hsays.symm.trans h'
      -- the name cannot be missing there, as the rest of the chain begins with an export of it
      obtain ⟨g, meaning, hg, hmeaning⟩ := rest.exists_explicit? hrest
      rw [hnone _ g hr hg] at hmeaning
      cases hmeaning
    | taken hf' h' hr' hthere =>
      obtain rfl := Except.ok.inj (hf.symm.trans hf')
      cases hsays.symm.trans h'
      obtain rfl := Option.some.inj (hr.symm.trans hr')
      exact ih hrest hthere
  | star => cases (hhops _ List.mem_cons_self).1

/-- Where no marked import is exported, a chain that passes any mark passes an export for types. -/
theorem Chain.exists_isErased (hp : p.HasNoMarkedImports) (h : p.Chain m name hops entries)
    (hmarks : ∃ hop ∈ hops, hop.marks ≠ []) : ∃ hop ∈ hops, hop.isErased := by
  have hlink : ∀ m f name l, p.read m = .ok f → f.IsLast name l → l.marks ≠ [] →
      Hop.isErased ⟨false, l.marks⟩ := by
    intro m f name l hf hl hne
    by_contra hvalue
    exact hne (hp m f hf name l hl.mem (Bool.not_eq_true _ ▸ hvalue))
  induction h with
  | own hf hl _ =>
    obtain ⟨hop, hhop, hne⟩ := hmarks
    obtain rfl := List.mem_singleton.1 hhop
    exact ⟨_, hhop, hlink _ _ _ _ hf hl hne⟩
  | taken hf hl _ _ _ ih =>
    obtain ⟨hop, hhop, hne⟩ := hmarks
    rcases List.mem_cons.1 hhop with rfl | hrest
    · exact ⟨_, hhop, hlink _ _ _ _ hf hl hne⟩
    · obtain ⟨other, hother, herased⟩ := ih ⟨hop, hrest, hne⟩
      exact ⟨other, List.mem_cons_of_mem _ hother, herased⟩
  | star hf _ _ hs _ _ ih =>
    obtain ⟨hop, hhop, hne⟩ := hmarks
    rcases List.mem_cons.1 hhop with rfl | hrest
    · obtain ⟨mark, hmark⟩ := List.exists_mem_of_ne_nil _ hne
      exact ⟨_, hhop, List.any_eq_true.2
        ⟨mark, hmark, SourceFile.isOnExport_of_mem_starLinks hs mark hmark⟩⟩
    · obtain ⟨other, hother, herased⟩ := ih ⟨hop, hrest, hne⟩
      exact ⟨other, List.mem_cons_of_mem _ hother, herased⟩

/-- A chain from a file without stars begins with one of its exports of the name. -/
theorem Chain.exists_link (h : p.Chain m name hops entries) {f : SourceFile}
    (hf : p.read m = .ok f) (hstars : f.starLinks = []) :
    ∃ l ∈ f.links name, ⟨false, l.marks⟩ ∈ hops := by
  cases h with
  | own hf' hl | taken hf' hl =>
    obtain rfl := Except.ok.inj (hf.symm.trans hf')
    exact ⟨_, hl.mem, List.mem_cons_self⟩
  | star hf' _ _ hs =>
    obtain rfl := Except.ok.inj (hf.symm.trans hf')
    rw [hstars] at hs
    cases hs

section exports

variable {s : ProjectState} {specifier file : String}

/-- Where nothing that comes under the name has declarations, the name has no value. -/
theorem hasNoValue_of_comes (hp : p.IsReadable) (hs : p.Reached s)
    (hm : p.resolve? specifier file = some m)
    (hnone : ∀ entries, p.Comes m name entries → entries = []) :
    p.HasNoValue specifier name file s := by
  have hdeclarations : ∀ found symbol,
      (p.exportsOf specifier file s).outcome = .ok (some found) →
      found.find? (fun symbol => symbol.name == name) = some symbol →
      symbol.declarations = [] := by
    intro found symbol houtcome hsymbol
    rcases exportsOf_found hp hs hm with ⟨exports, hfound, hexports⟩ | ⟨-, other, hfailed⟩
    · rw [hfound] at houtcome
      cases houtcome
      rw [find?_symbols] at hsymbol
      obtain ⟨entries, hentries, rfl⟩ := Option.map_eq_some_iff.1 hsymbol
      rw [hnone entries (hexports.comes name entries hentries)]
      rfl
    · rw [hfailed] at houtcome
      cases houtcome
  refine ⟨hdeclarations, fun framework trace => ?_⟩
  rw [Oracle.outcome_isComponent]
  have hsame : p.oracle.exportsOf specifier file s = p.exportsOf specifier file s := rfl
  dsimp only
  rw [hsame]
  rcases exportsOf_found hp hs hm with ⟨exports, hfound, -⟩ | ⟨-, other, hfailed⟩
  · rw [hfound]
    dsimp only [Oracle.settle, Option.getD_some]
    cases hsymbol : (symbols exports).find? fun symbol => symbol.name == name with
    | none => rfl
    | some symbol =>
      dsimp only
      rw [hdeclarations _ symbol hfound hsymbol]
      exact Oracle.verdict_nil _
  · rw [hfailed]
    rfl

/-- A chain without stars that passes no export for types gives its declarations, unless the search
is linked back. -/
theorem exportsOf_chain (hp : p.IsReadable) (hs : p.Reached s)
    (hm : p.resolve? specifier file = some m) (hchain : p.Chain m name hops entries)
    (hhops : ∀ hop ∈ hops, hop.isStar = false ∧ hop.isErased = false) :
    (∃ found, (p.exportsOf specifier file s).outcome = .ok (some found) ∧
      found.find? (fun symbol => symbol.name == name) =
        some ⟨name, entries.map Entry.declaration, entries.map Entry.origin⟩) ∨
    p.LinksBack m ∧
      ∃ other, (p.exportsOf specifier file s).outcome = .error (.circularReexport other) := by
  refine (exportsOf_found hp hs hm).imp_left ?_
  rintro ⟨exports, houtcome, hfound⟩
  refine ⟨symbols exports, houtcome, ?_⟩
  obtain ⟨f, meaning, hf, hmeaning⟩ := hchain.exists_explicit? hhops
  have hsome := hfound.explicit f name hf (by simp [hmeaning])
  obtain ⟨found, hget⟩ := Option.isSome_iff_exists.1 hsome
  rw [find?_symbols, hget, hchain.eq_of_comes hhops (hfound.comes name found hget)]
  rfl

/-- In every state that a program reaches:
(1) if every chain from an exported name passes an export for types, the name has no value;
(2) if no value export exports what is imported for types, it is enough that every chain passes some
mark, be it on an export or on an import;
(3) a chain without stars that passes no export for types gives its declarations, whatever marks the
imports on it carry, unless the search leads back to a module that is being visited. -/
theorem exportsOf_typeOnly (hp : p.IsReadable) (hs : p.Reached s)
    (hm : p.resolve? specifier file = some m) (name : String) :
    ((∀ hops entries, p.Chain m name hops entries → ∃ hop ∈ hops, hop.isErased) →
      p.HasNoValue specifier name file s) ∧
    (p.HasNoMarkedImports →
      (∀ hops entries, p.Chain m name hops entries → ∃ hop ∈ hops, hop.marks ≠ []) →
      p.HasNoValue specifier name file s) ∧
    ∀ hops entries, p.Chain m name hops entries →
      (∀ hop ∈ hops, hop.isStar = false ∧ hop.isErased = false) →
      (∃ found, (p.exportsOf specifier file s).outcome = .ok (some found) ∧
        found.find? (fun symbol => symbol.name == name) =
          some ⟨name, entries.map Entry.declaration, entries.map Entry.origin⟩) ∨
      p.LinksBack m ∧
        ∃ other, (p.exportsOf specifier file s).outcome = .error (.circularReexport other) := by
  have herased : (∀ hops entries, p.Chain m name hops entries → ∃ hop ∈ hops, hop.isErased) →
      p.HasNoValue specifier name file s := by
    intro hchains
    refine hasNoValue_of_comes hp hs hm fun entries hcomes => ?_
    by_contra hentries
    obtain ⟨hops, hchain, hvalue⟩ := hcomes.exists_chain hentries
    obtain ⟨hop, hhop, hmark⟩ := hchains hops entries hchain
    rw [hvalue hop hhop] at hmark
    cases hmark
  exact ⟨herased,
    fun himports hchains => herased fun hops entries hchain =>
      hchain.exists_isErased himports (hchains hops entries hchain),
    fun hops entries hchain hhops => exportsOf_chain hp hs hm hchain hhops⟩

end exports

/-- The tree of `import type { P } from './b';` at the start of a file. -/
def typesImport : ParseTree :=
  let leaf (type : String) (isNamed : Bool) (start stop : Nat) : ParseTree :=
    ⟨type, isNamed, false, start, stop, [], []⟩
  ⟨"import_statement", true, false, 0, 29, [leaf "type" false 7 11,
    ⟨"import_clause", true, false, 12, 17, [⟨"named_imports", true, false, 12, 17,
      [⟨"import_specifier", true, false, 14, 15, [leaf "identifier" true 14 15], [(.name, 0)]⟩],
      []⟩], []⟩, leaf "string" true 23 28], [(.source, 2)]⟩

/-- The tree of an export with tokens before `{ P };`. -/
def bracesExport (start clause : Nat) (tokens : List ParseTree) : ParseTree :=
  ⟨"export_statement", true, false, start, clause + 6, tokens ++ [⟨"export_clause", true, false,
    clause, clause + 5, [⟨"export_specifier", true, false, clause + 2, clause + 3,
      [⟨"identifier", true, false, clause + 2, clause + 3, [], []⟩], [(.name, 0)]⟩], []⟩], []⟩

/-- A file that declares a function and exports it. -/
def declaringFile : SourceFile :=
  ⟨"b.d.ts", "typescript", "declare function P(p): JSX.Element;\nexport \x7b P \x7d;\n", false,
    ⟨"program", true, false, 0, 50, [⟨"ambient_declaration", true, false, 0, 35,
      [elementSignature 8], []⟩, bracesExport 36 43 []], []⟩⟩

/-- A file that imports the function for types only, and exports it. -/
def importingFile : SourceFile :=
  ⟨"a.ts", "typescript", "import type \x7b P \x7d from './b';\nexport \x7b P \x7d;\n", false,
    ⟨"program", true, false, 0, 44, [typesImport, bracesExport 30 37 []], []⟩⟩

/-- A file that imports the function for types only, and exports it for types only. -/
def erasingFile : SourceFile :=
  ⟨"c.ts", "typescript", "import type \x7b P \x7d from './b';\nexport type \x7b P \x7d;\n", false,
    ⟨"program", true, false, 0, 49, [typesImport, bracesExport 30 42
      [⟨"type", false, false, 37, 41, [], []⟩]], []⟩⟩

def typesProgram (f : SourceFile) : Project :=
  ofFiles ([declaringFile, f].map fun f => (f.path, ⟨f.content, some (false, f.root)⟩))

theorem importingFile_links :
    importingFile.links "P" = [⟨[.importStatement], .taken "./b" "P"⟩] := rfl

theorem erasingFile_links :
    erasingFile.links "P" = [⟨[.exportStatement, .importStatement], .taken "./b" "P"⟩] := rfl

theorem declaringFile_localEntries : declaringFile.localEntries "P" =
    [declaringFile.entry (elementSignature 8) [elementSignature 8]] := by
  have hvalues : declaringFile.declaredValues = [elementSignature 8] := rfl
  have hname : "P" ∈ declaringFile.enteredNames (elementSignature 8) := by decide +kernel
  have hdeclarations : declaringFile.declarationsOf "P" = [elementSignature 8] := by
    simp [SourceFile.declarationsOf, hvalues, hname]
  exact SourceFile.localEntries_functions hdeclarations (by simp [ParseTree.isFunctionDeclaration,
    elementSignature, overloadTree])

theorem declaringFile_links (name : String) : declaringFile.links name =
    if "P" = name then [⟨[], .own (declaringFile.localEntries "P")⟩] else [] := by
  have hlocal : declaringFile.localLink "P" = ⟨[], .own (declaringFile.localEntries "P")⟩ := by
    unfold SourceFile.localLink
    rw [declaringFile_localEntries]
  have hnames : declaringFile.specifierNames ⟨"export_specifier", true, false, 45, 46,
      [⟨"identifier", true, false, 45, 46, [], []⟩], [(.name, 0)]⟩ = ("P", "P") := by
    decide +kernel
  have hspecifier : declaringFile.specifierLink? none name ⟨"export_specifier", true, false, 45, 46,
      [⟨"identifier", true, false, 45, 46, [], []⟩], [(.name, 0)]⟩ =
        if "P" = name then some ⟨[], .own (declaringFile.localEntries "P")⟩ else none := by
    unfold SourceFile.specifierLink?
    rw [hnames]
    dsimp only
    rw [hlocal]
    rfl
  change (List.filterMap (declaringFile.specifierLink? none name) [_]).map id ++ [] = _
  rw [List.filterMap_cons, hspecifier]
  by_cases hname : "P" = name <;> simp [hname]

theorem typesProgram_hasNoMarkedImports : (typesProgram erasingFile).HasNoMarkedImports := by
  intro m f hf name l hl hvalue
  have hread : (typesProgram erasingFile).read (Path.normalize m) = .ok f := by
    unfold read at hf ⊢
    rw [Path.normalize_normalize]
    exact hf
  have hmem := mem_fileNames_of_contains (contains_of_read hf)
  have hnames : (typesProgram erasingFile).fileNames = ["b.d.ts", "c.ts"] := by decide
  rw [hnames, List.mem_pair] at hmem
  rcases hmem with hm | hm
  · obtain rfl : declaringFile = f := Except.ok.inj (hm ▸ hread)
    rw [declaringFile_links] at hl
    split at hl
    · rw [List.mem_singleton.1 hl]
    · cases hl
  · obtain rfl : erasingFile = f := Except.ok.inj (hm ▸ hread)
    obtain ⟨statement, hstatement, hl⟩ := List.mem_flatMap.1 hl
    have hstatements : erasingFile.root.namedChildren = [typesImport, bracesExport 30 42
      [⟨"type", false, false, 37, 41, [], []⟩]] := rfl
    rw [hstatements, List.mem_pair] at hstatement
    rcases hstatement with rfl | rfl
    · cases hl
    · rw [SourceFile.isErased_of_mem_statementLinks rfl hl] at hvalue
      cases hvalue

/-- A name that is both imported and exported for types only has no value. -/
theorem exportsOf_typeOnly_erasing :
    (typesProgram erasingFile).IsReadable ∧ (typesProgram erasingFile).HasNoMarkedImports ∧
      (typesProgram erasingFile).resolve? "./c" "app.ts" = some "c.ts" ∧
      (typesProgram erasingFile).HasNoValue "./c" "P" "app.ts" {} := by
  have hreadable : (typesProgram erasingFile).IsReadable := isReadable_ofFiles (by decide)
  have hc : (typesProgram erasingFile).resolve? "./c" "app.ts" = some "c.ts" := by decide
  have hread : (typesProgram erasingFile).read "c.ts" = .ok erasingFile := rfl
  refine ⟨hreadable, typesProgram_hasNoMarkedImports, hc, ?_⟩
  refine (exportsOf_typeOnly hreadable .fresh hc "P").2.1 typesProgram_hasNoMarkedImports ?_
  intro hops entries hchain
  obtain ⟨l, hl, hhop⟩ := hchain.exists_link hread rfl
  rw [erasingFile_links, List.mem_singleton] at hl
  exact ⟨_, hhop, by simp [hl]⟩

theorem typesProgram_chain : (typesProgram importingFile).Chain "a.ts" "P"
    [⟨false, [.importStatement]⟩, ⟨false, []⟩]
    [declaringFile.entry (elementSignature 8) [elementSignature 8]] := by
  have hdeclared : (typesProgram importingFile).Chain "b.d.ts" "P" [⟨false, []⟩]
      (declaringFile.localEntries "P") := by
    have hread : (typesProgram importingFile).read "b.d.ts" = .ok declaringFile := rfl
    have hlast : declaringFile.IsLast "P" ⟨[], .own (declaringFile.localEntries "P")⟩ :=
      ⟨[], [], declaringFile_links "P", List.forall_mem_nil _⟩
    exact .own hread hlast rfl
  have hread : (typesProgram importingFile).read "a.ts" = .ok importingFile := rfl
  have hlast : importingFile.IsLast "P" ⟨[.importStatement], .taken "./b" "P"⟩ :=
    ⟨[], [], importingFile_links, List.forall_mem_nil _⟩
  rw [← declaringFile_localEntries]
  exact .taken hread hlast rfl (by decide) hdeclared

/-- There is a chain from the name, and every one passes an import for types, but the name is a
component. -/
theorem typesProgram_yields_component :
    (typesProgram importingFile).resolve? "./a" "app.ts" = some "a.ts" ∧
      (∃ hops entries, (typesProgram importingFile).Chain "a.ts" "P" hops entries) ∧
      (∀ hops entries, (typesProgram importingFile).Chain "a.ts" "P" hops entries →
        ∃ hop ∈ hops, hop.marks ≠ []) ∧
      ∀ trace, (((typesProgram importingFile).oracle.isComponent {} "./a" "P" "app.ts").runFrom
        ⟨trace, {}⟩).1 = .ok true := by
  have hreadable : (typesProgram importingFile).IsReadable := isReadable_ofFiles (by decide)
  have ha : (typesProgram importingFile).resolve? "./a" "app.ts" = some "a.ts" := by decide
  refine ⟨ha, ⟨_, _, typesProgram_chain⟩, fun hops entries hchain => ?_, fun trace => ?_⟩
  · have hread : (typesProgram importingFile).read "a.ts" = .ok importingFile := rfl
    obtain ⟨l, hl, hhop⟩ := hchain.exists_link hread rfl
    rw [importingFile_links, List.mem_singleton] at hl
    exact ⟨_, hhop, by simp [hl]⟩
  rcases exportsOf_chain hreadable .fresh ha typesProgram_chain (by simp [Hop.isErased,
    TypeMark.isOnExport]) with ⟨found, houtcome, hsymbol⟩ | ⟨hback, -⟩
  · have hread : (typesProgram importingFile).read "b.d.ts" = .ok declaringFile := rfl
    have hcount : (declaringFile.parameters (elementSignature 8)).length = 1 := by decide +kernel
    have hsignature : declaringFile.callSignature (elementSignature 8) = ⟨1, some .jsxElement⟩ := by
      decide +kernel
    have hnormal : (typesProgram importingFile).IsNormal := isNormal_ofFiles _
    have hfunction : (elementSignature 8).isFunctionDeclaration := by decide
    rw [outcome_isComponent_function hnormal (by decide) hread hfunction (List.cons_ne_nil _ [])
      houtcome hsymbol, hcount, List.map_cons, hsignature]
    rfl
  · have hacyclic : (typesProgram importingFile).IsAcyclic :=
      isAcyclic_of_rank (fun path => ["b.d.ts", "a.ts"].idxOf path) (by decide +kernel)
    exact absurd hback hacyclic.not_linksBack

end Project

end DeferredImports
