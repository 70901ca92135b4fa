import DeferredImports.Failure
import DeferredImports.Syntax.Describe

/-! The parts of a node by name. Not every kind has every part, and a part with a default may be
absent; to ask for what is not there is a failure of the one who asks. -/

namespace DeferredImports

/-- What stands as the name of a node: nothing, a word, or another node. -/
inductive NodeName where
  | absent
  | word (text : String)
  | node (name : Node)

namespace NodeName

def ofOption : Option String → NodeName
  | none => absent
  | some s => word s

/-- Whether the name is the given word. -/
def isWord (s : String) : NodeName → Bool
  | word t => t == s
  | _ => false

/-- The name as it shows in a line of text. -/
def shown : NodeName → String
  | absent => "None"
  | word s => s
  | node n => n.describe

/-- The name, where nothing but a word can be used. -/
def asWord : NodeName → Except Failure String
  | word s => .ok s
  | _ => .error .unfit

/-- The name, where a node is expected. -/
def asNode : NodeName → Except Failure Node
  | node n => .ok n
  | _ => .error .absentPart

end NodeName

namespace Node

/-- The items of a sequence that must not be absent. -/
def items {α : Type} : Option (List α) → Except Failure (List α)
  | none => .error .unfit
  | some xs => .ok xs

/-- The text of a leaf. -/
def text : Node → Except Failure String
  | identifier t | stringLiteral t _ | rawStatement t _ _ | typeHandle t _
  | otherExpression _ (some t) => .ok t
  | otherExpression _ none => .error .unfit
  | _ => .error .absentPart

/-- The text of a leaf as it shows in a line of text, where it may be absent. -/
def shownText : Node → Except Failure String
  | otherExpression _ none => .ok "None"
  | n => n.text

/-- The name of a named part. -/
def name : Node → Except Failure NodeName
  | propertyAccess _ n | parameter n | propertyAssignment n _ | variableDeclaration n _
  | typeSymbol n _ => .ok (.word n)
  | functionExpression n _ | classDeclaration n _ | functionDeclaration n _
  | otherDeclaration _ n => .ok (.ofOption n)
  | importSpecifier n _ _ | namespaceImport n => .ok (.node n)
  | _ => .error .absentPart

def expression : Node → Except Failure Node
  | propertyAccess e _ | elementAccess e _ | callExpression e _ | parenthesized e
  | expressionWithTypeArguments e _ | exportAssignment e => .ok e
  | _ => .error .absentPart

/-- Whether an import or a part of one is for types only. -/
def isTypeOnly : Node → Except Failure Bool
  | importSpecifier _ _ o | importDeclaration _ _ _ o _ _ => .ok (o == some true)
  | _ => .error .absentPart

/-- The top-level statements of a module. -/
def statements : Node → Except Failure (List Node)
  | sourceModule _ ss _ => items ss
  | _ => .error .absentPart

def fileName : Node → Except Failure String
  | sourceModule f _ _ => .ok f
  | _ => .error .absentPart

/-- Only statements that keep trivia take other trivia. -/
def withLeadingTrivia (trivia : Option String) : Node → Except Failure Node
  | importDeclaration s d b o _ x => .ok (importDeclaration s d b o trivia x)
  | variableStatement ds k _ => .ok (variableStatement ds k trivia)
  | rawStatement t k _ => .ok (rawStatement t k trivia)
  | _ => .error .unfit

end Node

end DeferredImports
