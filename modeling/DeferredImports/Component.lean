import DeferredImports.Config.Options
import DeferredImports.Oracle
import DeferredImports.Syntax.Parts

/-! Components: classes that extend the framework's base class, and functions of one or two
parameters that return its element type. -/

namespace DeferredImports

/-- A declaration seen as the function value that it denotes. -/
structure CallableShape where
  parameters : Option (List Node)
  node : Node

namespace Node

/-- Arrow functions and function expressions. -/
def functionValue? : Node → Option CallableShape
  | arrowFunction ps b => some ⟨ps, arrowFunction ps b⟩
  | functionExpression n ps => some ⟨ps, functionExpression n ps⟩
  | _ => none

def declaratorValue? : Node → Option CallableShape
  | variableDeclaration _ i => i.bind functionValue?
  | _ => none

/-- Functions, functions exported as a default value, and variables that start as a function; of
several variables in a statement the first one counts. -/
def callable? : Node → Option CallableShape
  | functionDeclaration n ps => some ⟨ps, functionDeclaration n ps⟩
  | exportAssignment e => e.functionValue?
  | variableStatement ds _ _ => ds.head?.bind declaratorValue?
  | n => n.declaratorValue?

/-- The types of the first `extends` clause; what stands before it must be a clause. -/
def extendedTypes : List Node → Except Failure (List Node)
  | [] => .ok []
  | heritageClause .superclass ts :: _ => items ts
  | heritageClause .interfaces _ :: clauses => extendedTypes clauses
  | _ => .error .absentPart

/-- Whether the node is the framework's base class, as a member of its root identifier. -/
def isBaseComponent (framework : Framework) : Node → Bool
  | propertyAccess (identifier root) member =>
    root == framework.rootIdentifier && member == framework.baseComponentName
  | _ => false

/-- Whether the first `extends` clause names the base class. -/
def extendsBaseComponent (framework : Framework) (heritageClauses : List Node) :
    Except Failure Bool := do
  (← extendedTypes heritageClauses).anyM fun t => do
    return isBaseComponent framework (← t.expression)

/-- The enclosing namespace of a type. -/
def parent : Node → Except Failure (Option Node)
  | typeSymbol _ p => .ok p
  | _ => .error .absentPart

/-- The element type directly inside its namespace. -/
def isElementType (framework : Framework) (t : Node) : Except Failure Bool := do
  if !(← t.name).isWord framework.elementTypeName then return false
  match ← t.parent with
  | none => return false
  | some p => return (← p.name).isWord framework.elementNamespace

/-- The first of several call signatures decides about a declared type. -/
def returnsElement (framework : Framework) : Node → Except Failure Bool
  | typeHandle _ none | typeHandle _ (some []) => .ok false
  | typeHandle _ (some (callSignature _ none :: _)) => .ok false
  | typeHandle _ (some (callSignature _ (some t) :: _)) => t.isElementType framework
  | _ => .error .absentPart

end Node

namespace Oracle

variable {ω σ : Type}

/-- The first symbol that a module exports under a name. A failed look-up is logged. -/
def resolveExport (oracle : Oracle ω σ) (specifier name file : String) :
    Session σ (Option (ExportedSymbol ω)) := do
  match ← Session.ask (.exportsAsked specifier file) (oracle.exportsOf specifier file) with
  | .error (.resolution r) =>
    Session.log (.symbolUnresolved specifier name r.text)
    return none
  | .error e => throw e
  | .ok none =>
    Session.log (.moduleUnresolved specifier file)
    return none
  | .ok (some symbols) => return symbols.find? fun s => s.name == name

/-- Props and context are all that a component function takes. -/
def isFunctionComponent (oracle : Oracle ω σ) (framework : Framework) (symbol : ExportedSymbol ω)
    (shape : CallableShape) : Session σ Bool := do
  let parameters ← Effect.ofExcept (Node.items shape.parameters)
  if parameters.length = 1 ∨ parameters.length = 2 then
    match ← Session.ask (.typeAsked symbol.name) (oracle.typeOf symbol) with
    | .error (.resolution r) =>
      Session.log (.typeUnresolved symbol.name r.text)
      return false
    | .error e => throw e
    | .ok none => return false
    | .ok (some declared) => Effect.ofExcept (declared.returnsElement framework)
  else return false

/-- Whether what a module exports under a name is a component. What cannot be resolved to one
declaration is none. -/
def isComponent (oracle : Oracle ω σ) (framework : Framework) (specifier name file : String) :
    Session σ Bool := do
  match ← oracle.resolveExport specifier name file with
  | none => return false
  | some symbol =>
    match symbol.declarations with
    | [.classDeclaration _ heritageClauses] => Effect.ofExcept do
      Node.extendsBaseComponent framework (← Node.items heritageClauses)
    | [declaration] =>
      match declaration.callable? with
      | none => return false
      | some shape => oracle.isFunctionComponent framework symbol shape
    | declarations =>
      Session.log (.symbolAmbiguous specifier name declarations.length)
      return false

end Oracle

end DeferredImports
