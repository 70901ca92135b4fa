/-! The kinds of syntax nodes, and the fields that hold other nodes. -/

namespace DeferredImports

inductive Kind where
  | identifier | stringLiteral | propertyAccess | elementAccess | callExpression | importCall
  | parameter | arrowFunction | functionExpression | parenthesized | propertyAssignment
  | objectLiteral | otherExpression | importSpecifier | namedImports | namespaceImport
  | importDeclaration | variableDeclaration | variableStatement | rawStatement
  | expressionWithTypeArguments | heritageClause | classDeclaration | functionDeclaration
  | exportAssignment | otherDeclaration | sourceModule | typeSymbol | callSignature | typeHandle
deriving DecidableEq

namespace Kind

/-- The name of a kind in messages. -/
def label : Kind → String
  | identifier => "Identifier"
  | stringLiteral => "StringLiteral"
  | propertyAccess => "PropertyAccess"
  | elementAccess => "ElementAccess"
  | callExpression => "CallExpression"
  | importCall => "ImportCall"
  | parameter => "Parameter"
  | arrowFunction => "ArrowFunction"
  | functionExpression => "FunctionExpression"
  | parenthesized => "ParenthesizedExpression"
  | propertyAssignment => "PropertyAssignment"
  | objectLiteral => "ObjectLiteral"
  | otherExpression => "OtherExpression"
  | importSpecifier => "ImportSpecifier"
  | namedImports => "NamedImports"
  | namespaceImport => "NamespaceImport"
  | importDeclaration => "ImportDeclaration"
  | variableDeclaration => "VariableDeclaration"
  | variableStatement => "VariableStatement"
  | rawStatement => "RawStatement"
  | expressionWithTypeArguments => "ExpressionWithTypeArguments"
  | heritageClause => "HeritageClause"
  | classDeclaration => "ClassDeclaration"
  | functionDeclaration => "FunctionDeclaration"
  | exportAssignment => "ExportAssignment"
  | otherDeclaration => "OtherDeclaration"
  | sourceModule => "Module"
  | typeSymbol => "TypeSymbol"
  | callSignature => "CallSignature"
  | typeHandle => "TypeHandle"

/-- Types and their signatures are descriptions and no syntax. -/
def isSyntax : Kind → Bool
  | typeSymbol | callSignature | typeHandle => false
  | _ => true

end Kind

inductive Field where
  | expression | argument | arguments | parameters | body | initializer | properties | name
  | propertyName | elements | moduleSpecifier | defaultName | namedBindings | declarations
  | types | heritageClauses | statements | parent | returnType | callSignatures
deriving DecidableEq

/-- The name of a field in messages and positions. -/
def Field.label : Field → String
  | expression => "expression"
  | argument => "argument"
  | arguments => "arguments"
  | parameters => "parameters"
  | body => "body"
  | initializer => "initializer"
  | properties => "properties"
  | name => "name"
  | propertyName => "property_name"
  | elements => "elements"
  | moduleSpecifier => "module_specifier"
  | defaultName => "default_name"
  | namedBindings => "named_bindings"
  | declarations => "declarations"
  | types => "types"
  | heritageClauses => "heritage_clauses"
  | statements => "statements"
  | parent => "parent"
  | returnType => "return_type"
  | callSignatures => "call_signatures"

end DeferredImports
