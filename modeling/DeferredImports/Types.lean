import DeferredImports.Syntax.Node

/-! Declared types, as far as classification asks for them, and their descriptions as nodes. -/

namespace DeferredImports

/-- A named type and the namespaces around it, the innermost first. -/
structure TypeSymbol where
  name : String
  namespaces : List String
deriving DecidableEq

namespace TypeSymbol

/-- The namespace that encloses the type directly. -/
def parent? (t : TypeSymbol) : Option TypeSymbol :=
  match t.namespaces with
  | [] => none
  | n :: ns => some ⟨n, ns⟩

/-- The dotted path, outermost name first. -/
def path (t : TypeSymbol) : List String := t.namespaces.reverse ++ [t.name]

def ofPath? (parts : List String) : Option TypeSymbol :=
  match parts.reverse with
  | [] => none
  | n :: ns => some ⟨n, ns⟩

theorem ofPath?_path (t : TypeSymbol) : ofPath? t.path = some t := by
  simp [ofPath?, path]

/-- The description of a type inside the given namespaces. -/
def describe (name : String) : List String → Node
  | [] => .typeSymbol name none
  | n :: ns => .typeSymbol name (some (describe n ns))

def toNode (t : TypeSymbol) : Node := describe t.name t.namespaces

/-- What a component returns unless a framework says otherwise. -/
def jsxElement : TypeSymbol := ⟨"Element", ["JSX"]⟩

end TypeSymbol

/-- One way to call a value. -/
structure CallSignature where
  parameterCount : Nat
  returnType : Option TypeSymbol
deriving DecidableEq

def CallSignature.toNode (s : CallSignature) : Node :=
  .callSignature s.parameterCount (s.returnType.map TypeSymbol.toNode)

/-- The declared type of a binding. -/
structure TypeHandle where
  text : String
  callSignatures : List CallSignature
deriving DecidableEq

def TypeHandle.toNode (t : TypeHandle) : Node :=
  .typeHandle t.text (some (t.callSignatures.map CallSignature.toNode))

end DeferredImports
