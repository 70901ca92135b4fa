import DeferredImports.Syntax.Node
import DeferredImports.Text.Quoted

/-! Descriptions of nodes, as they show where a name was expected: the kind and all fields. -/

namespace DeferredImports

/-- The name of a variable kind in messages. -/
def VariableKind.label : VariableKind → String
  | constant => "CONST"
  | mutable => "LET"
  | functionScoped => "VAR"

/-- The name of a heritage token in messages. -/
def HeritageToken.label : HeritageToken → String
  | superclass => "EXTENDS"
  | interfaces => "IMPLEMENTS"

namespace Node

/-- A member of a set of words, by its name and its word. -/
def describeWord (set label word : String) : String :=
  "<" ++ set ++ "." ++ label ++ ": " ++ Text.quoted word ++ ">"

def describeText : Option String → String
  | none => "None"
  | some s => Text.quoted s

def describeFlag : Option Bool → String
  | none => "None"
  | some true => "True"
  | some false => "False"

/-- A sequence in parentheses; one item alone is followed by a comma. -/
def describeSequence : List String → String
  | [item] => "(" ++ item ++ ",)"
  | items => "(" ++ ", ".intercalate items ++ ")"

def describeFields (kind : Kind) (fields : List (String × String)) : String :=
  kind.label ++ "(" ++ ", ".intercalate (fields.map fun f => f.1 ++ "=" ++ f.2) ++ ")"

mutual

def describe : Node → String
  | identifier t => describeFields .identifier [("text", Text.quoted t)]
  | stringLiteral t q =>
    describeFields .stringLiteral [("text", Text.quoted t), ("quote", describeText q)]
  | propertyAccess e n =>
    describeFields .propertyAccess [("expression", describe e), ("name", Text.quoted n)]
  | elementAccess e a =>
    describeFields .elementAccess [("expression", describe e), ("argument", describe a)]
  | callExpression e as =>
    describeFields .callExpression [("expression", describe e), ("arguments", describeItems as)]
  | importCall a => describeFields .importCall [("argument", describe a)]
  | parameter n => describeFields .parameter [("name", Text.quoted n)]
  | arrowFunction ps b =>
    describeFields .arrowFunction [("parameters", describeItems ps), ("body", describeOption b)]
  | functionExpression n ps =>
    describeFields .functionExpression
      [("name", describeText n), ("parameters", describeItems ps)]
  | parenthesized e => describeFields .parenthesized [("expression", describe e)]
  | propertyAssignment n i =>
    describeFields .propertyAssignment [("name", Text.quoted n), ("initializer", describe i)]
  | objectLiteral ps => describeFields .objectLiteral [("properties", describeItems ps)]
  | otherExpression k t =>
    describeFields .otherExpression [("node_type", Text.quoted k), ("text", describeText t)]
  | importSpecifier n p o =>
    describeFields .importSpecifier
      [("name", describe n), ("property_name", describeOption p), ("is_type_only", describeFlag o)]
  | namedImports es => describeFields .namedImports [("elements", describeItems es)]
  | namespaceImport n => describeFields .namespaceImport [("name", describe n)]
  | importDeclaration s d b o t x =>
    describeFields .importDeclaration
      [("module_specifier", describe s), ("default_name", describeOption d),
        ("named_bindings", describeOption b), ("is_type_only", describeFlag o),
        ("leading_trivia", describeText t), ("source_text", describeText x)]
  | variableDeclaration n i =>
    describeFields .variableDeclaration
      [("name", Text.quoted n), ("initializer", describeOption i)]
  | variableStatement ds k t =>
    describeFields .variableStatement
      [("declarations", describeSequence (describeList ds)),
        ("declaration_kind", describeWord "VariableKind" k.label k.keyword),
        ("leading_trivia", describeText t)]
  | rawStatement t k l =>
    describeFields .rawStatement
      [("text", Text.quoted t), ("node_type", describeText k), ("leading_trivia", describeText l)]
  | expressionWithTypeArguments e as =>
    let arguments := match as with
      | none => "None"
      | some ss => describeSequence (ss.map Text.quoted)
    describeFields .expressionWithTypeArguments
      [("expression", describe e), ("type_arguments", arguments)]
  | heritageClause t ts =>
    describeFields .heritageClause
      [("token", describeWord "HeritageToken" t.label t.keyword), ("types", describeItems ts)]
  | classDeclaration n hs =>
    describeFields .classDeclaration
      [("name", describeText n), ("heritage_clauses", describeItems hs)]
  | functionDeclaration n ps =>
    describeFields .functionDeclaration
      [("name", describeText n), ("parameters", describeItems ps)]
  | exportAssignment e => describeFields .exportAssignment [("expression", describe e)]
  | otherDeclaration k n =>
    describeFields .otherDeclaration [("node_type", Text.quoted k), ("name", describeText n)]
  | sourceModule f ss t =>
    describeFields .sourceModule
      [("file_name", Text.quoted f), ("statements", describeItems ss),
        ("trailing_trivia", describeText t)]
  | typeSymbol n p =>
    describeFields .typeSymbol [("name", Text.quoted n), ("parent", describeOption p)]
  | callSignature c r =>
    describeFields .callSignature
      [("parameter_count", toString c), ("return_type", describeOption r)]
  | typeHandle t cs =>
    describeFields .typeHandle [("text", Text.quoted t), ("call_signatures", describeItems cs)]

def describeList : List Node → List String
  | [] => []
  | n :: ns => describe n :: describeList ns

def describeOption : Option Node → String
  | none => "None"
  | some n => describe n

def describeItems : Option (List Node) → String
  | none => "None"
  | some ns => describeSequence (describeList ns)

end

end Node

end DeferredImports
