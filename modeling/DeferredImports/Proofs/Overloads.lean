import DeferredImports.Proofs.FoundNames
import DeferredImports.Proofs.LocalDeclarations
import DeferredImports.Proofs.StarNames
import DeferredImports.Proofs.Verdict

/-! Overloaded functions as other modules see them. Main statement: an exported function with
overload signatures is one declaration with the parameters of its first signature, its type has the
call signatures of the overloads in their order without that of the implementation, and whether it
is a component is told by the first of them alone. -/

namespace DeferredImports

namespace SourceFile

/-- The declarations of the name are overload signatures, and perhaps an implementation after
them. -/
structure IsOverloaded (f : SourceFile) (name : String) (signatures : List ParseTree)
    (implementation : Option ParseTree) : Prop where
  nonempty : signatures ≠ []
  signature : ∀ t ∈ signatures, t.type = "function_signature"
  body : ∀ t ∈ implementation,
    t.type = "function_declaration" ∨ t.type = "generator_function_declaration"
  declarations : f.partsIn name f.declaredValues = signatures ++ implementation.toList

variable {f : SourceFile} {name : String} {first : ParseTree} {others : List ParseTree}
  {implementation : Option ParseTree}

theorem IsOverloaded.functions {signatures : List ParseTree}
    (h : f.IsOverloaded name signatures implementation) :
    ∀ t ∈ signatures ++ implementation.toList, t.isFunctionDeclaration := by
  intro t ht
  rcases List.mem_append.1 ht with ht | ht
  · simp [ParseTree.isFunctionDeclaration, h.signature t ht]
  · rcases h.body t (Option.mem_toList.1 ht) with hbody | hbody <;>
      simp [ParseTree.isFunctionDeclaration, hbody]

/-- Only the overload signatures can be called. -/
theorem IsOverloaded.callableSignatures {signatures : List ParseTree}
    (h : f.IsOverloaded name signatures implementation) :
    ParseTree.callableSignatures (signatures ++ implementation.toList) = signatures := by
  have hsignatures : signatures.filter (fun s => s.type == "function_signature") = signatures :=
    List.filter_eq_self.2 fun t ht => by simp [h.signature t ht]
  have himplementation :
      implementation.toList.filter (fun s => s.type == "function_signature") = [] := by
    refine List.filter_eq_nil_iff.2 fun t ht => ?_
    rcases h.body t (Option.mem_toList.1 ht) with hbody | hbody <;> simp [hbody]
  have hempty : signatures.isEmpty = false := by simp [h.nonempty]
  unfold ParseTree.callableSignatures
  rw [List.filter_append, hsignatures, himplementation, List.append_nil]
  simp only [hempty, Bool.false_eq_true, if_false]

/-- Overloads are one entry, at the first signature. -/
theorem IsOverloaded.valueEntries (h : f.IsOverloaded name (first :: others) implementation) :
    f.valueEntries name = [f.entry first (first :: others)] := by
  have hfunctions := h.functions
  have hall : (first :: others ++ implementation.toList).filter ParseTree.isFunctionDeclaration =
      first :: others ++ implementation.toList := List.filter_eq_self.2 hfunctions
  have hrest : (others ++ implementation.toList).filter (fun u => !u.isFunctionDeclaration) = [] :=
    List.filter_eq_nil_iff.2 fun u hu => by simp [hfunctions u (List.mem_cons_of_mem first hu)]
  rw [SourceFile.valueEntries, h.declarations, hall, List.cons_append, entriesOf,
    if_pos (hfunctions first List.mem_cons_self), hrest, ← List.cons_append, h.callableSignatures]
  rfl

theorem declaration_function {t : ParseTree} (h : t.isFunctionDeclaration) :
    f.declaration t =
      .functionDeclaration (f.nameOf? (t.child? .name)) (some (f.parameters t)) := by
  unfold declaration
  rw [if_neg (by simp [not_isClass h]), if_pos h]

theorem declaredType_function {t : ParseTree} (h : t.isFunctionDeclaration)
    {signatures : List ParseTree} (hs : signatures ≠ []) :
    f.declaredType t signatures = ⟨"function", signatures.map f.callSignature⟩ := by
  have hempty : signatures.isEmpty = false := by simp [hs]
  unfold declaredType
  rw [if_pos (by simp [ParseTree.isFunctionLike, h, hempty])]

end SourceFile

namespace Project

variable {p : Project}

/-- A symbol that stands for one function of a file is classified by the parameters of the function
and the first signature that can be called. -/
theorem outcome_isComponent_function (hn : p.IsNormal) {m : String} (hm : p.files.contains m)
    {f : SourceFile} (hf : p.read m = .ok f) {t : ParseTree} (ht : t.isFunctionDeclaration)
    {signatures : List ParseTree} (hsignatures : signatures ≠ []) {s : ProjectState}
    {specifier file name : String} {found : List (ExportedSymbol (List Origin))}
    (houtcome : (p.exportsOf specifier file s).outcome = .ok (some found))
    (hsymbol : found.find? (fun symbol => symbol.name == name) =
      some ⟨name, [f.declaration t], [⟨f.path, t, signatures⟩]⟩)
    (framework : Framework) (trace : List Action) :
    ((p.oracle.isComponent framework specifier name file).runFrom ⟨trace, s⟩).1 =
      .ok (((f.parameters t).length == 1 || (f.parameters t).length == 2) &&
        (signatures.map f.callSignature).head?.any (CallSignature.returnsElement framework)) := by
  have htold : p.told specifier name file s = some ([f.declaration t],
      .ok (some ⟨"function", signatures.map f.callSignature⟩)) := by
    rw [told_of_found houtcome hsymbol]
    dsimp only
    rw [outcome_typeOf_own hn hm hf, SourceFile.declaredType_function ht hsignatures]
  rw [outcome_isComponent_of_told htold, SourceFile.declaration_function ht]
  exact Oracle.verdict_function _ _ _

/-- A module that exports an overloaded function, in one way, has it as a symbol with a single
declaration, with the parameters of the first signature. Its type has the signatures of the
overloads, whatever the program was asked before; and the count of parameters and the return type
that classify it are those of the first one. Only a search that is linked back does not find it, and
a fresh one never does then. -/
theorem exportsOf_overloads (hp : p.IsReadable) (hn : p.IsNormal) {s : ProjectState}
    (hs : p.Reached s) {specifier file m : String} (hm : p.resolve? specifier file = some m)
    {f : SourceFile} (hf : p.read m = .ok f) {name exported : String} {first : ParseTree}
    {others : List ParseTree} {implementation : Option ParseTree}
    (ho : f.IsOverloaded name (first :: others) implementation)
    (he : f.IsExportedUnder name exported) (hplain : f.ExportsPlainly exported) :
    (p.LinksBack m → p.RaisesCircular specifier file) ∧
    ((∃ found symbol, (p.exportsOf specifier file s).outcome = .ok (some found) ∧
      found.find? (fun symbol => symbol.name == exported) = some symbol ∧
      symbol.declarations =
        [.functionDeclaration (f.nameOf? (first.child? .name)) (some (f.parameters first))] ∧
      (∀ t, (p.typeOf symbol t).outcome =
        .ok (some ⟨"function", (first :: others).map f.callSignature⟩)) ∧
      ∀ framework trace,
        ((p.oracle.isComponent framework specifier exported file).runFrom ⟨trace, s⟩).1 =
          .ok ((f.callSignature first).isComponent framework)) ∨
    p.LinksBack m ∧
      ∃ other, (p.exportsOf specifier file s).outcome = .error (.circularReexport other)) := by
  have hfunction : first.isFunctionDeclaration := by
    simp [ParseTree.isFunctionDeclaration, ho.signature first List.mem_cons_self]
  have hexplicit : f.explicit? exported = some (.own [f.entry first (first :: others)]) := by
    rw [← ho.valueEntries]
    exact he.explicit?_eq hplain (by simp [ho.valueEntries])
  refine ⟨(raisesCircular_iff_linksBack hp hm).2, (exportsOf_own hp hs hm hf hexplicit).imp_left ?_⟩
  rintro ⟨found, houtcome, hsymbol⟩
  have htype : ∀ t, (p.typeOf ⟨exported, [f.declaration first],
      [⟨f.path, first, first :: others⟩]⟩ t).outcome =
        .ok (some ⟨"function", (first :: others).map f.callSignature⟩) := by
    intro t
    rw [outcome_typeOf_own hn (contains_of_resolve? hm).1 hf,
      SourceFile.declaredType_function hfunction (List.cons_ne_nil _ _)]
  refine ⟨found, _, houtcome, hsymbol, ?_, htype, fun framework trace => ?_⟩
  · exact congrArg (fun d => [d]) (SourceFile.declaration_function hfunction)
  · exact outcome_isComponent_function hn (contains_of_resolve? hm).1 hf hfunction
      (List.cons_ne_nil _ _) houtcome hsymbol framework trace

/-- The tree of `function P(p, ..)` from an offset on, with the offset of its last parameter and
with what follows its parameters. -/
def overloadTree (type : String) (start last : Nat) (rest : ParseTree) (field : TreeField) :
    ParseTree :=
  let parameters : List ParseTree := (List.range' (start + 11) ((last - start - 11) / 3 + 1) 3).map
    fun i => ⟨"required_parameter", true, false, i, i + 1, [], []⟩
  ⟨type, true, false, start, rest.stop,
    [⟨"identifier", true, false, start + 9, start + 10, [], []⟩,
      ⟨"formal_parameters", true, false, start + 10, last + 2, parameters, []⟩, rest],
    [(.name, 0), (.parameters, 1), (field, 2)]⟩

/-- The tree of `function P(p): JSX.Element;` from an offset on. -/
def elementSignature (start : Nat) : ParseTree :=
  overloadTree "function_signature" start (start + 11)
    ⟨"type_annotation", true, false, start + 13, start + 26, [], []⟩ .returnType

/-- The tree of `function P(p, q, r): void;` from an offset on. -/
def voidSignature (start : Nat) : ParseTree :=
  overloadTree "function_signature" start (start + 17)
    ⟨"type_annotation", true, false, start + 19, start + 25, [], []⟩ .returnType

/-- The tree of `function P(p, q, r) { return p; }` from an offset on. -/
def implementationTree (start : Nat) : ParseTree :=
  overloadTree "function_declaration" start (start + 17)
    ⟨"statement_block", true, false, start + 20, start + 33, [⟨"return_statement", true, false,
      start + 22, start + 31, [⟨"identifier", true, false, start + 29, start + 30, [], []⟩], []⟩],
      []⟩ .body

/-- The tree of `export ` before a declaration. -/
def exportedDeclaration (start : Nat) (d : ParseTree) : ParseTree :=
  ⟨"export_statement", true, false, start, d.stop, [d], [(.declaration, 0)]⟩

/-- The tree of `export { P as Q };` from an offset on. -/
def renamingExport (start : Nat) : ParseTree :=
  let leaf (start : Nat) : ParseTree := ⟨"identifier", true, false, start, start + 1, [], []⟩
  ⟨"export_statement", true, false, start, start + 18,
    [⟨"export_clause", true, false, start + 7, start + 17,
      [⟨"export_specifier", true, false, start + 9, start + 15,
        [leaf (start + 9), leaf (start + 14)], [(.name, 0), (.newName, 1)]⟩], []⟩], []⟩

/-- A file with two overload signatures, a constant between them and the implementation, all
exported where they stand but for the constant, and an export of the function under another name. -/
def overloadedFile : SourceFile :=
  ⟨"lib.ts", "typescript", "export function P(p): JSX.Element;\nconst x = 1;\n" ++
      "export function P(p, q, r): void;\nexport function P(p, q, r) \x7b return p; \x7d\n" ++
      "export \x7b P as Q \x7d;\n", false,
    ⟨"program", true, false, 0, 142,
      [exportedDeclaration 0 (elementSignature 7), constantDeclaration 35,
        exportedDeclaration 48 (voidSignature 55), exportedDeclaration 82 (implementationTree 89),
        renamingExport 123], []⟩⟩

def overloadedProgram : Project :=
  ofFiles [("lib.ts", ⟨overloadedFile.content, some (false, overloadedFile.root)⟩)]

theorem overloadedFile_isOverloaded :
    overloadedFile.IsOverloaded "P" [elementSignature 7, voidSignature 55]
      (some (implementationTree 89)) where
  nonempty := List.cons_ne_nil _ _
  signature := by simp [elementSignature, voidSignature, overloadTree]
  body := by simp [implementationTree, overloadTree]
  declarations := by
    have hvalues : overloadedFile.declaredValues =
        [elementSignature 7, constantDeclaration 35, voidSignature 55, implementationTree 89] := rfl
    have hfunctions : overloadedFile.declaredName (elementSignature 7) = "P" ∧
        overloadedFile.declaredName (voidSignature 55) = "P" ∧
        overloadedFile.declaredName (implementationTree 89) = "P" := by decide +kernel
    have hconstant : (overloadedFile.partsIn "P" [constantDeclaration 35]).length = 0 := by
      decide +kernel
    rw [hvalues, SourceFile.partsIn_cons_of_function rfl hfunctions.1,
      SourceFile.partsIn_cons (constantDeclaration 35), List.eq_nil_of_length_eq_zero hconstant,
      List.nil_append, SourceFile.partsIn_cons_of_function rfl hfunctions.2.1,
      SourceFile.partsIn_cons_of_function rfl hfunctions.2.2]
    rfl

theorem overloadedFile_hasPlainExports : overloadedFile.HasPlainExports := by
  decide +kernel

/-- The function is exported where it stands, and under another name. -/
theorem overloadedFile_isExportedUnder :
    overloadedFile.IsExportedUnder "P" "P" ∧ overloadedFile.IsExportedUnder "P" "Q" := by
  have hplain := overloadedFile_hasPlainExports.exportsPlainly
  exact ⟨(hplain "P").isExportedUnder (by decide +kernel) (by decide +kernel),
    (hplain "Q").isExportedUnder (by decide +kernel) (by decide +kernel)⟩

/-- The function is a component under both names, whatever its second signature and its
implementation are. -/
theorem exportsOf_overloads_two :
    overloadedProgram.IsReadable ∧ overloadedProgram.IsNormal ∧
      overloadedProgram.resolve? "./lib" "app.ts" = some "lib.ts" ∧
      overloadedFile.IsOverloaded "P" [elementSignature 7, voidSignature 55]
        (some (implementationTree 89)) ∧
      overloadedFile.ExportsPlainly "P" ∧ overloadedFile.ExportsPlainly "Q" ∧
      ∀ exported ∈ ["P", "Q"], overloadedFile.IsExportedUnder "P" exported ∧
        ∀ trace, ((overloadedProgram.oracle.isComponent {} "./lib" exported "app.ts").runFrom
          ⟨trace, {}⟩).1 = .ok true := by
  have hreadable : overloadedProgram.IsReadable := isReadable_ofFiles (by decide)
  have hnormal : overloadedProgram.IsNormal := isNormal_ofFiles _
  have hlib : overloadedProgram.resolve? "./lib" "app.ts" = some "lib.ts" := by decide
  have hread : overloadedProgram.read "lib.ts" = .ok overloadedFile := rfl
  have hfirst : overloadedFile.callSignature (elementSignature 7) = ⟨1, some .jsxElement⟩ := by
    decide +kernel
  have hplain := overloadedFile_hasPlainExports.exportsPlainly
  have hstars : overloadedProgram.IsStarOnly := isStarOnly_of_takenOver (by decide +kernel)
  obtain ⟨hcontains, hsource⟩ := contains_of_resolve? hlib
  refine ⟨hreadable, hnormal, hlib, overloadedFile_isOverloaded, hplain "P", hplain "Q", ?_⟩
  intro exported hmem
  have hexported : overloadedFile.IsExportedUnder "P" exported := by
    simp only [List.mem_cons, List.not_mem_nil, or_false] at hmem
    rcases hmem with rfl | rfl
    · exact overloadedFile_isExportedUnder.1
    · exact overloadedFile_isExportedUnder.2
  refine ⟨hexported, fun trace => ?_⟩
  rcases (exportsOf_overloads hreadable hnormal .fresh hlib hread overloadedFile_isOverloaded
    hexported (hplain exported)).2 with ⟨_, _, -, -, -, -, hcomponent⟩ | ⟨hback, -⟩
  · rw [hcomponent {} trace, hfirst]
    rfl
  · exact absurd hback (hstars.not_linksBack hcontains hsource)

/-- The tree of a name in braces, as in `{ P }`, from an offset on. -/
def bracedName (start : Nat) : ParseTree :=
  ⟨"export_clause", true, false, start, start + 5, [⟨"export_specifier", true, false, start + 2,
    start + 3, [⟨"identifier", true, false, start + 2, start + 3, [], []⟩], [(.name, 0)]⟩], []⟩

/-- A file that takes a name over from another one, and exports an overloaded function. -/
def linkedFile : SourceFile :=
  ⟨"a.ts", "typescript", "export \x7b x \x7d from './b';\nfunction P(p): JSX.Element;\n" ++
      "function P(p, q, r) \x7b return p; \x7d\nexport \x7b P \x7d;\n", false,
    ⟨"program", true, false, 0, 101,
      [⟨"export_statement", true, false, 0, 24,
          [bracedName 7, ⟨"string", true, false, 18, 23, [], []⟩], [(.source, 1)]⟩,
        elementSignature 25, implementationTree 53,
        ⟨"export_statement", true, false, 87, 100, [bracedName 94], []⟩], []⟩⟩

/-- The other file takes the function over. -/
def linkedProgram : Project :=
  ofFiles [("a.ts", ⟨linkedFile.content, some (false, linkedFile.root)⟩),
    ("b.ts", ⟨"export \x7b P \x7d from './a';\nconst x = 1;\nexport \x7b x \x7d;\n",
      some (false, mutualTree)⟩)]

theorem linkedFile_isOverloaded :
    linkedFile.IsOverloaded "P" [elementSignature 25] (some (implementationTree 53)) where
  nonempty := List.cons_ne_nil _ _
  signature := by simp [elementSignature, overloadTree]
  body := by simp [implementationTree, overloadTree]
  declarations := by
    have hvalues : linkedFile.declaredValues = [elementSignature 25, implementationTree 53] := rfl
    have hfunctions : linkedFile.declaredName (elementSignature 25) = "P" ∧
        linkedFile.declaredName (implementationTree 53) = "P" := by decide +kernel
    rw [hvalues, SourceFile.partsIn_cons_of_function rfl hfunctions.1,
      SourceFile.partsIn_cons_of_function rfl hfunctions.2]
    rfl

theorem linkedFile_isExportedUnder : linkedFile.IsExportedUnder "P" "P" := by
  have hplain : linkedFile.HasPlainExports := by decide +kernel
  exact (hplain.exportsPlainly "P").isExportedUnder (by decide +kernel) (by decide +kernel)

theorem linkedProgram_linksBack : linkedProgram.LinksBack "a.ts" := by
  have ha : ("./b", some ("x", "x")) ∈ linkedProgram.takenOver "a.ts" := by decide +kernel
  have hb : ("./a", some ("P", "P")) ∈ linkedProgram.takenOver "b.ts" := by decide +kernel
  have hab : linkedProgram.Links "a.ts" "b.ts" := links_of_mem ha (by decide)
  have hba : linkedProgram.Links "b.ts" "a.ts" := links_of_mem hb (by decide)
  exact ⟨"b.ts", "a.ts", ["a.ts"], .next .start (.inl hab) (by decide), hba, by decide⟩

/-- The function is exported once, but the look-up of its module fails as circular. -/
theorem linkedProgram_misses_overloads :
    linkedProgram.IsReadable ∧ linkedProgram.IsNormal ∧
      linkedProgram.resolve? "./a" "main.ts" = some "a.ts" ∧
      linkedProgram.read "a.ts" = .ok linkedFile ∧
      linkedFile.IsOverloaded "P" [elementSignature 25] (some (implementationTree 53)) ∧
      linkedFile.IsExportedUnder "P" "P" ∧ linkedProgram.RaisesCircular "./a" "main.ts" := by
  have hreadable : linkedProgram.IsReadable := isReadable_ofFiles (by decide)
  have hm : linkedProgram.resolve? "./a" "main.ts" = some "a.ts" := by decide
  exact ⟨hreadable, isNormal_ofFiles _, hm, rfl, linkedFile_isOverloaded,
    linkedFile_isExportedUnder,
    (raisesCircular_iff_linksBack hreadable hm).2 linkedProgram_linksBack⟩

end Project

end DeferredImports
