import DeferredImports.Syntax.Import
import DeferredImports.Table
import DeferredImports.Text.Basic
import DeferredImports.Text.WordCharacter

/-! Building blocks for new syntax: member accesses, calls, functions, constants and imports. -/

namespace DeferredImports.Node

open Text (isIdentifierName)

/-- A literal with double quotes. -/
def doubleQuoted (text : String) : Node := .stringLiteral text (some "\"")

/-- A name that holds a double quote goes between single ones. -/
def nameQuote (name : String) : String := if Text.holds '"' name then "'" else "\""

/-- The literal that spells the name of an export. -/
def nameLiteral (name : String) : Node := .stringLiteral name (some (nameQuote name))

def elementNamed (object : Node) (name : String) : Node :=
  .elementAccess object (nameLiteral name)

/-- A name that cannot follow a dot stands in brackets. -/
def memberNamed (object : Node) (name : String) : Node :=
  if isIdentifierName name then .propertyAccess object name else elementNamed object name

def call (callee : Node) (arguments : List Node) : Node := .callExpression callee (some arguments)

def arrow (parameters : List String) (body : Option Node) : Node :=
  .arrowFunction (some (parameters.map parameter)) body

/-- A repeated name keeps its first place and takes the last value. -/
def objectOf (properties : List (String × Node)) : Node :=
  .objectLiteral (some ((Table.ofList properties).entries.map fun p =>
    .propertyAssignment p.1 p.2))

def constantNamed (name : String) (initializer : Option Node) (leadingTrivia : Option String) :
    Node :=
  .variableStatement [.variableDeclaration name initializer] .constant leadingTrivia

/-- A binding under its exported name, or under a local name of its own. -/
inductive NamedBinding where
  | plain (name : String)
  | renamed (exported localName : String)

def NamedBinding.toNode : NamedBinding → Node
  | plain n => .importSpecifier (.identifier n) none (some false)
  | renamed e l => .importSpecifier (.identifier l) (some (.identifier e)) (some false)

/-- A namespace takes precedence over named bindings, and an empty default name is none. -/
def importOf (moduleSpecifier : Node) (defaultName : Option String)
    (named : Option (List NamedBinding)) (namespaceName : Option String) : Node :=
  let bindings := match namespaceName with
    | some n => some (.namespaceImport (.identifier n))
    | none => named.map fun bs => .namedImports (some (bs.map NamedBinding.toNode))
  .importDeclaration moduleSpecifier ((defaultName.filter (· ≠ "")).map .identifier) bindings
    (some false) none none

end DeferredImports.Node
