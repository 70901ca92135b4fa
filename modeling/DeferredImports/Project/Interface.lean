import DeferredImports.Source.Declarations
import DeferredImports.Source.Statements

/-! The interface of a file: the declarations that it exports, and what it takes over from other
modules. -/

namespace DeferredImports

/-- Where a declaration stands, with the overload signatures of a function. -/
structure Origin where
  file : String
  node : ParseTree
  signatures : List ParseTree

/-- A value declaration and its origin. -/
structure Entry where
  declaration : Node
  origin : Origin

/-- One export: declarations of the file itself under a name, a name of another module under a
name, or all names of another module but the default one. -/
inductive ExportItem where
  | own (exported : String) (entries : List Entry)
  | link (exported specifier name : String)
  | star (specifier : String)

namespace ParseTree

/-- The declaration inside an ambient one. -/
def unwrapAmbient? (t : ParseTree) : Option ParseTree :=
  if t.type == "ambient_declaration" then t.firstMeaningful? else some t

/-- The declaration inside all ambient ones around it. -/
def withoutAmbient? (t : ParseTree) : Option ParseTree :=
  if t.type == "ambient_declaration" then
    match _h : t.firstMeaningful? with
    | none => none
    | some inner => inner.withoutAmbient?
  else some t
termination_by sizeOf t
decreasing_by exact sizeOf_lt_of_firstMeaningful? _h

/-- A namespace may stand as an expression. -/
def unwrapExpression? (t : ParseTree) : Option ParseTree :=
  if t.type == "expression_statement" then t.namedChildren.find? isNamespace else some t

def isValueDeclaration (t : ParseTree) : Bool :=
  t.isFunctionDeclaration || t.isClass || t.isVariableStatement || t.isNamespace ||
    t.type == "enum_declaration"

/-- The value that a top-level statement declares, exported or not. -/
def declared? (statement : ParseTree) : Option ParseTree :=
  let inner := if statement.type == "export_statement" then statement.child? .declaration
    else some statement
  ((inner.bind unwrapAmbient?).bind unwrapExpression?).filter isValueDeclaration

def declarators (t : ParseTree) : List ParseTree :=
  t.namedChildren.filter fun c => c.type == "variable_declarator"

/-- The implementation of an overloaded function cannot be called from outside. -/
def callableSignatures (signatures : List ParseTree) : List ParseTree :=
  let overloads := signatures.filter fun s => s.type == "function_signature"
  if overloads.isEmpty then signatures else overloads

end ParseTree

namespace SourceFile

def declaredName (f : SourceFile) (t : ParseTree) : String := f.textOf (t.child? .name)

/-- The names under which a declaration counts, ambient or not. A declarator counts under the text
of what it declares, so that a pattern is one name whatever it binds. -/
def declaredNames (f : SourceFile) (t : ParseTree) : List String :=
  match t.withoutAmbient? with
  | none => []
  | some t =>
    if t.isVariableStatement then t.declarators.map f.declaredName
    else ((t.child? .name).map f.text).toList

def entry (f : SourceFile) (t : ParseTree) (signatures : List ParseTree) : Entry :=
  ⟨f.declaration t, ⟨f.path, t, signatures⟩⟩

/-- The entry of a declaration by itself, ambient or not. -/
def ownEntry (f : SourceFile) (t : ParseTree) : Entry :=
  let t := t.unwrapAmbient?.getD t
  f.entry t (if t.isFunctionDeclaration then [t] else [])

/-- The values that the file declares at its top level. -/
def declaredValues (f : SourceFile) : List ParseTree :=
  f.root.namedChildren.filterMap ParseTree.declared?

/-- All signatures under the name of a function. -/
def signaturesOf (f : SourceFile) (name : String) : List ParseTree :=
  f.declaredValues.filter fun t => t.isFunctionDeclaration && f.declaredName t == name

/-- The entries of a variable statement; a name stands for its first declarator. -/
def variableEntries (f : SourceFile) (t : ParseTree) : List (String × Entry) :=
  t.declarators.filterMap fun d =>
    let name := f.declaredName d
    (t.declarators.find? fun e => f.declaredName e == name).map fun e => (name, f.entry e [])

/-- Entries by name, in order, after some functions were met. A function is entered once, by its
first signature. -/
def entriesAfter (f : SourceFile) (functions : List String) :
    List ParseTree → List (String × Entry)
  | [] => []
  | t :: ts =>
    if t.isFunctionDeclaration then
      let name := f.declaredName t
      if functions.contains name then f.entriesAfter functions ts
      else (name, f.entry t (ParseTree.callableSignatures (f.signaturesOf name))) ::
        f.entriesAfter (name :: functions) ts
    else if t.isVariableStatement then f.variableEntries t ++ f.entriesAfter functions ts
    else ((t.child? .name).map fun n => (f.text n, f.entry t [])).toList ++
      f.entriesAfter functions ts

/-- The value declarations of the file under a name, exported or not. -/
def localEntries (f : SourceFile) (name : String) : List Entry :=
  ((f.entriesAfter [] f.declaredValues).filter fun e => e.1 == name).map Prod.snd

/-- The exported name of the import specifier that binds a local name. -/
def specifierFor? (f : SourceFile) (name : String) (t : ParseTree) : Option String :=
  let imported := f.exportNameOf (t.child? .name)
  let bound := match t.child? .newName with
    | none => imported
    | some new => f.text new
  if bound == name then some imported else none

/-- The exported name that a part of an import clause binds to a local name. -/
def importedName? (f : SourceFile) (name : String) (part : ParseTree) : Option String :=
  match part.type with
  | "identifier" => if f.text part == name then some "default" else none
  | "named_imports" => (specifiersIn part).findSome? (f.specifierFor? name)
  | _ => none

/-- The module and the exported name behind a local name that an import statement binds. -/
def importBinding? (f : SourceFile) (name : String) (statement : ParseTree) :
    Option (String × String) :=
  if statement.type == "import_statement" then
    match statement.child? .source, importClause? statement with
    | some source, some clause =>
      (clause.namedChildren.findSome? (f.importedName? name)).map fun imported =>
        (f.exportName source, imported)
    | _, _ => none
  else none

/-- The export of a local name: its declarations, or the import that binds it. -/
def bindingItem (f : SourceFile) (exported name : String) : ExportItem :=
  match f.localEntries name with
  | [] =>
    match f.root.namedChildren.findSome? (f.importBinding? name) with
    | some (specifier, imported) => .link exported specifier imported
    | none => .own exported []
  | entries => .own exported entries

/-- The export of a declaration; types have no value to export. -/
def declarationItems (f : SourceFile) (isDefault : Bool) (declaration : ParseTree) :
    List ExportItem :=
  if isDefault then [.own "default" [f.ownEntry declaration]]
  else (f.declaredNames declaration).filterMap fun name =>
    match f.localEntries name with
    | [] => none
    | entries => some (.own name entries)

def valueItem (f : SourceFile) (value : ParseTree) : ExportItem :=
  if value.type == "identifier" then f.bindingItem "default" (f.text value)
  else .own "default" [⟨f.exportValue value, ⟨f.path, value, []⟩⟩]

/-- The export of a name in braces, from the file itself or from another module. -/
def specifierItem (f : SourceFile) (source : Option ParseTree) (t : ParseTree) : ExportItem :=
  let name := f.exportNameOf (t.child? .name)
  let exported := match t.child? .newName with
    | none => name
    | some new => f.exportName new
  match source with
  | some source => .link exported (f.exportName source) name
  | none => f.bindingItem exported name

/-- The export of all that another module exports, under one name or name by name. -/
def wholeModuleItem (f : SourceFile) (source statement : ParseTree) : ExportItem :=
  match statement.namedOfType? "namespace_export" with
  | some t =>
    let name := f.textOf t.firstMeaningful?
    .own name [⟨.otherDeclaration "namespace_export" (some name), ⟨f.path, t, []⟩⟩]
  | none => .star (f.exportName source)

/-- The exports of a statement; those of types only are none. -/
def statementItems (f : SourceFile) (statement : ParseTree) : List ExportItem :=
  if statement.type != "export_statement" || statement.isTypeOnly then []
  else
    let isDefault := statement.hasToken "default"
    let source := statement.child? .source
    match statement.child? .declaration with
    | some declaration => f.declarationItems isDefault declaration
    | none =>
      match (statement.child? .value).filter fun _ => isDefault with
      | some value => [f.valueItem value]
      | none =>
        match statement.namedOfType? "export_clause" with
        | some clause =>
          (clause.namedChildren.filter fun c =>
            c.type == "export_specifier" && !c.isTypeOnly).map (f.specifierItem source)
        | none => (source.map fun s => f.wholeModuleItem s statement).toList

/-- What the file exports, in the order of its statements. -/
def exportItems (f : SourceFile) : List ExportItem :=
  f.root.namedChildren.flatMap f.statementItems

end SourceFile

end DeferredImports
