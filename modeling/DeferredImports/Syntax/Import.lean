import DeferredImports.Syntax.Parts

/-! Import statements: their bindings, by local and by exported name. -/

namespace DeferredImports

namespace Node

/-- The local name of a named binding. -/
def localName (n : Node) : Except Failure String := do (← (← n.name).asNode).text

/-- The exported name of a named binding. It is spelled only where it differs from the local
one. -/
def exportedName : Node → Except Failure String
  | importSpecifier n p _ => (p.getD n).text
  | _ => .error .absentPart

end Node

/-- An import statement, taken out of its place in a tree. -/
@[ext] structure ImportStatement where
  moduleSpecifier : Node
  defaultName : Option Node
  namedBindings : Option Node
  isTypeOnly : Option Bool
  leadingTrivia : Option String
  sourceText : Option String

namespace ImportStatement

def toNode (d : ImportStatement) : Node :=
  .importDeclaration d.moduleSpecifier d.defaultName d.namedBindings d.isTypeOnly d.leadingTrivia
    d.sourceText

def specifier (d : ImportStatement) : Except Failure String := d.moduleSpecifier.text

def hasClause (d : ImportStatement) : Bool := d.defaultName.isSome || d.namedBindings.isSome

/-- Whether the whole statement is for types only. -/
def isForTypes (d : ImportStatement) : Bool := d.isTypeOnly == some true

def defaultBinding? (d : ImportStatement) : Except Failure (Option String) :=
  match d.defaultName with
  | none => .ok none
  | some n => do return some (← n.text)

/-- The named bindings. -/
def specifiers (d : ImportStatement) : Except Failure (List Node) :=
  match d.namedBindings with
  | some (.namedImports es) => Node.items es
  | _ => .ok []

def namespaceName? (d : ImportStatement) : Except Failure (Option String) :=
  match d.namedBindings with
  | some (.namespaceImport n) => do return some (← n.text)
  | _ => .ok none

/-- The local names: the default one, the namespace, and the named ones in their order. -/
def boundNames (d : ImportStatement) : Except Failure (List String) := do
  let default ← d.defaultBinding?
  let namespaceName ← d.namespaceName?
  return default.toList ++ namespaceName.toList ++ (← (← d.specifiers).mapM Node.localName)

end ImportStatement

namespace Node

def import? : Node → Option ImportStatement
  | importDeclaration s d b o t x => some ⟨s, d, b, o, t, x⟩
  | _ => none

theorem import?_eq_some {n : Node} {d : ImportStatement} : n.import? = some d ↔ n = d.toNode := by
  cases n <;> simp [import?, ImportStatement.toNode, ImportStatement.ext_iff, eq_comm]

/-- The imports at the top level of a module. -/
def imports (m : Node) : Except Failure (List ImportStatement) := do
  return (← m.statements).filterMap import?

/-- The names that an import or a variable statement binds. -/
def boundNames : Node → Except Failure (List String)
  | variableStatement ds _ _ => ds.mapM fun d => do (← d.name).asWord
  | n =>
    match n.import? with
    | none => .ok []
    | some d => d.boundNames

end Node

end DeferredImports
