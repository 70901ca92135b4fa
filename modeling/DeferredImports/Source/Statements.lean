import DeferredImports.Source.SourceFile
import DeferredImports.Syntax.Node

/-! Reading a file as a module: its imports with their bindings, all else as text, and the trivia
in between. -/

namespace DeferredImports.SourceFile

/-- The content and the quote of a literal; one without matching quotes is kept as it is. -/
def literalParts (raw : String) : String × String :=
  match raw.toList with
  | quote :: rest =>
    if (quote = '"' ∨ quote = '\'') ∧ rest.getLast? = some quote then
      (String.ofList rest.dropLast, quote.toString)
    else (raw, "\"")
  | [] => (raw, "\"")

def stringLiteral (f : SourceFile) (t : ParseTree) : Node :=
  let (text, quote) := literalParts (f.text t)
  .stringLiteral text (some quote)

/-- The name in an import or export specifier: an identifier, or what a literal spells. -/
def exportName (f : SourceFile) (t : ParseTree) : String :=
  if t.type == "string" then (literalParts (f.text t)).1 else f.text t

def exportNameOf (f : SourceFile) : Option ParseTree → String
  | none => ""
  | some t => f.exportName t

def importSpecifier (f : SourceFile) (t : ParseTree) : Node :=
  let exported := Node.identifier (f.exportNameOf (t.child? .name))
  match t.child? .newName with
  | none => .importSpecifier exported none (some t.isTypeOnly)
  | some new => .importSpecifier (.identifier (f.text new)) (some exported) (some t.isTypeOnly)

def specifiersIn (t : ParseTree) : List ParseTree :=
  t.namedChildren.filter fun c => c.type == "import_specifier"

/-- The default and the other bindings after one more part of an import clause. -/
def addBinding (f : SourceFile) (bindings : Option Node × Option Node) (part : ParseTree) :
    Option Node × Option Node :=
  match part.type with
  | "identifier" => (some (.identifier (f.text part)), bindings.2)
  | "namespace_import" =>
    (bindings.1, some (.namespaceImport (.identifier (f.textOf (part.namedOfType? "identifier")))))
  | "named_imports" =>
    (bindings.1, some (.namedImports (some ((specifiersIn part).map f.importSpecifier))))
  | _ => bindings

def importClause? (t : ParseTree) : Option ParseTree := t.namedOfType? "import_clause"

def bindings (f : SourceFile) (statement : ParseTree) : Option Node × Option Node :=
  match importClause? statement with
  | none => (none, none)
  | some clause => clause.namedChildren.foldl f.addBinding (none, none)

/-- Imports of a module by a literal are read as such, and every other statement as text. -/
def statement (f : SourceFile) (t : ParseTree) (leadingTrivia : String) : Node :=
  let raw := Node.rawStatement (f.text t) (some t.type) (some leadingTrivia)
  if t.type == "import_statement" then
    match t.child? .source with
    | none => raw
    | some source =>
      if source.type == "string" then
        let (default, named) := f.bindings t
        .importDeclaration (f.stringLiteral source) default named (some t.isTypeOnly)
          (some leadingTrivia) (some (f.text t))
      else raw
  else raw

def isTrivia (t : ParseTree) : Bool := t.type == "comment" || t.type == "hash_bang_line"

/-- The statements from an offset on, each with the trivia before it, and the text after the
last one. -/
def statementsFrom (f : SourceFile) : Nat → List ParseTree → List Node × String
  | offset, [] => ([], f.between offset f.byteLength)
  | offset, t :: ts =>
    if isTrivia t then f.statementsFrom offset ts
    else
      let (statements, trailing) := f.statementsFrom t.stop ts
      (f.statement t (f.between offset t.start) :: statements, trailing)

def toModule (f : SourceFile) : Node :=
  let (statements, trailing) := f.statementsFrom 0 f.root.children
  .sourceModule f.path (some statements) (some trailing)

end DeferredImports.SourceFile
