import DeferredImports.Syntax.Kind

/-! Module-level syntax: imports, the statements built in their place, the declarations that a
target module exports, and descriptions of types. Nothing is checked: any node may stand at any
position, and what has a default may be absent. -/

namespace DeferredImports

inductive VariableKind where
  | constant | mutable | functionScoped
deriving DecidableEq

namespace VariableKind

def keyword : VariableKind → String
  | constant => "const"
  | mutable => "let"
  | functionScoped => "var"

def ofKeyword? (word : String) : Option VariableKind :=
  [constant, mutable, functionScoped].find? fun k => k.keyword == word

theorem ofKeyword?_keyword (k : VariableKind) : ofKeyword? k.keyword = some k := by
  cases k <;> decide

end VariableKind

inductive HeritageToken where
  | superclass | interfaces
deriving DecidableEq

namespace HeritageToken

def keyword : HeritageToken → String
  | superclass => "extends"
  | interfaces => "implements"

def ofKeyword? (word : String) : Option HeritageToken :=
  [superclass, interfaces].find? fun t => t.keyword == word

theorem ofKeyword?_keyword (t : HeritageToken) : ofKeyword? t.keyword = some t := by
  cases t <;> decide

end HeritageToken

/-- A string literal keeps its content as written between the quotes. An import declaration that
was read keeps its source text, and statements keep the trivia before them. Expressions and
statements without a model of their own are kept as text. -/
inductive Node where
  | identifier (text : String)
  | stringLiteral (text : String) (quote : Option String)
  | propertyAccess (expression : Node) (name : String)
  | elementAccess (expression argument : Node)
  | callExpression (expression : Node) (arguments : Option (List Node))
  | importCall (argument : Node)
  | parameter (name : String)
  | arrowFunction (parameters : Option (List Node)) (body : Option Node)
  | functionExpression (name : Option String) (parameters : Option (List Node))
  | parenthesized (expression : Node)
  | propertyAssignment (name : String) (initializer : Node)
  | objectLiteral (properties : Option (List Node))
  | otherExpression (nodeType : String) (text : Option String)
  | importSpecifier (name : Node) (propertyName : Option Node) (isTypeOnly : Option Bool)
  | namedImports (elements : Option (List Node))
  | namespaceImport (name : Node)
  | importDeclaration (moduleSpecifier : Node) (defaultName namedBindings : Option Node)
      (isTypeOnly : Option Bool) (leadingTrivia sourceText : Option String)
  | variableDeclaration (name : String) (initializer : Option Node)
  | variableStatement (declarations : List Node) (declarationKind : VariableKind)
      (leadingTrivia : Option String)
  | rawStatement (text : String) (nodeType leadingTrivia : Option String)
  | expressionWithTypeArguments (expression : Node) (typeArguments : Option (List String))
  | heritageClause (token : HeritageToken) (types : Option (List Node))
  | classDeclaration (name : Option String) (heritageClauses : Option (List Node))
  | functionDeclaration (name : Option String) (parameters : Option (List Node))
  | exportAssignment (expression : Node)
  | otherDeclaration (nodeType : String) (name : Option String)
  | sourceModule (fileName : String) (statements : Option (List Node))
      (trailingTrivia : Option String)
  | typeSymbol (name : String) (parent : Option Node)
  | callSignature (parameterCount : Int) (returnType : Option Node)
  | typeHandle (text : String) (callSignatures : Option (List Node))
deriving Inhabited

namespace Node

def kind : Node → Kind
  | identifier .. => .identifier
  | stringLiteral .. => .stringLiteral
  | propertyAccess .. => .propertyAccess
  | elementAccess .. => .elementAccess
  | callExpression .. => .callExpression
  | importCall .. => .importCall
  | parameter .. => .parameter
  | arrowFunction .. => .arrowFunction
  | functionExpression .. => .functionExpression
  | parenthesized .. => .parenthesized
  | propertyAssignment .. => .propertyAssignment
  | objectLiteral .. => .objectLiteral
  | otherExpression .. => .otherExpression
  | importSpecifier .. => .importSpecifier
  | namedImports .. => .namedImports
  | namespaceImport .. => .namespaceImport
  | importDeclaration .. => .importDeclaration
  | variableDeclaration .. => .variableDeclaration
  | variableStatement .. => .variableStatement
  | rawStatement .. => .rawStatement
  | expressionWithTypeArguments .. => .expressionWithTypeArguments
  | heritageClause .. => .heritageClause
  | classDeclaration .. => .classDeclaration
  | functionDeclaration .. => .functionDeclaration
  | exportAssignment .. => .exportAssignment
  | otherDeclaration .. => .otherDeclaration
  | sourceModule .. => .sourceModule
  | typeSymbol .. => .typeSymbol
  | callSignature .. => .callSignature
  | typeHandle .. => .typeHandle

/-- The white space and comments before a statement, where it keeps them. -/
def leadingTrivia? : Node → Option String
  | importDeclaration _ _ _ _ t _ | variableStatement _ _ t | rawStatement _ _ t => t
  | _ => none

end Node

end DeferredImports
