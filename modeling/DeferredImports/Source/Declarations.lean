import DeferredImports.Source.SourceFile
import DeferredImports.Syntax.Node

/-! Reading the declarations that a module exports, as far as classification looks into them. -/

namespace DeferredImports

namespace ParseTree

def isFunctionDeclaration (t : ParseTree) : Bool :=
  ["function_declaration", "generator_function_declaration", "function_signature"].contains t.type

def isFunctionExpression (t : ParseTree) : Bool :=
  ["function_expression", "function", "generator_function"].contains t.type

def isClass (t : ParseTree) : Bool :=
  ["class_declaration", "abstract_class_declaration", "class"].contains t.type

def isVariableStatement (t : ParseTree) : Bool :=
  ["lexical_declaration", "variable_declaration"].contains t.type

def isNamespace (t : ParseTree) : Bool := ["internal_module", "module"].contains t.type

def isParameter (t : ParseTree) : Bool :=
  ["required_parameter", "optional_parameter", "identifier", "rest_pattern"].contains t.type

/-- What stands between the parentheses of a function. -/
def parameterList? (t : ParseTree) : Option ParseTree :=
  (t.child? .parameters).or (t.namedOfType? "formal_parameters")

end ParseTree

namespace SourceFile

def parameter (f : SourceFile) (t : ParseTree) : Node :=
  .parameter (f.text ((t.child? .pattern).getD t))

/-- The parameters of a function; an arrow function may have a single bare one. -/
def parameters (f : SourceFile) (t : ParseTree) : List Node :=
  match t.child? .parameter with
  | some single => [.parameter (f.text single)]
  | none =>
    match t.parameterList? with
    | none => []
    | some ps => (ps.namedChildren.filter ParseTree.isParameter).map f.parameter

def otherExpression (f : SourceFile) (t : ParseTree) : Node :=
  .otherExpression t.type (some (f.text t))

/-- Identifiers, member accesses, functions and what stands in parentheses are read; every other
expression is kept as text. -/
def expression (f : SourceFile) (t : ParseTree) : Node :=
  if t.type == "identifier" then .identifier (f.text t)
  else if t.type == "member_expression" then
    match _h : t.child? .object with
    | none => f.otherExpression t
    | some object => .propertyAccess (f.expression object) (f.textOf (t.child? .property))
  else if t.type == "arrow_function" then .arrowFunction (some (f.parameters t)) none
  else if t.isFunctionExpression then
    .functionExpression (f.nameOf? (t.child? .name)) (some (f.parameters t))
  else if t.type == "parenthesized_expression" then
    match _h : t.firstMeaningful? with
    | none => f.otherExpression t
    | some inner => .parenthesized (f.expression inner)
  else f.otherExpression t
termination_by sizeOf t
decreasing_by
  · exact ParseTree.sizeOf_lt_of_child? _h
  · exact ParseTree.sizeOf_lt_of_firstMeaningful? _h

/-- The extended types after one more part of the clause; type arguments belong to the type
before them. -/
def addExtended (f : SourceFile) (types : List Node) (t : ParseTree) : List Node :=
  if t.type == "type_arguments" then
    match types.getLast? with
    | some (.expressionWithTypeArguments e _) =>
      types.dropLast ++ [.expressionWithTypeArguments e (some (t.namedChildren.map f.text))]
    | _ => types
  else types ++ [.expressionWithTypeArguments (f.expression t) (some [])]

def heritageClause? (f : SourceFile) (t : ParseTree) : Option Node :=
  match t.type with
  | "extends_clause" =>
    some (.heritageClause .superclass (some (t.namedChildren.foldl f.addExtended [])))
  | "implements_clause" =>
    some (.heritageClause .interfaces (some (t.namedChildren.map fun c =>
      .expressionWithTypeArguments (f.otherExpression c) (some []))))
  | _ => none

def classDeclaration (f : SourceFile) (t : ParseTree) : Node :=
  let heritage := t.namedChildren.filter fun c => c.type == "class_heritage"
  .classDeclaration (f.nameOf? (t.child? .name))
    (some (heritage.flatMap fun h => h.namedChildren.filterMap f.heritageClause?))

/-- Classes, functions and variables are read; every other declaration is known by its name. -/
def declaration (f : SourceFile) (t : ParseTree) : Node :=
  if t.isClass then f.classDeclaration t
  else if t.isFunctionDeclaration then
    .functionDeclaration (f.nameOf? (t.child? .name)) (some (f.parameters t))
  else if t.type == "variable_declarator" then
    .variableDeclaration (f.textOf (t.child? .name)) ((t.child? .value).map f.expression)
  else .otherDeclaration t.type (f.nameOf? (t.child? .name))

/-- What is exported as a default value without a name. -/
def exportValue (f : SourceFile) (t : ParseTree) : Node :=
  if t.isClass then f.classDeclaration t else .exportAssignment (f.expression t)

end SourceFile

end DeferredImports
