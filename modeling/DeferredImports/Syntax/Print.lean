import DeferredImports.Syntax.Build

/-! Printing syntax. What was read is printed as it was read; new syntax has one fixed form. -/

namespace DeferredImports.Node

open Text (isIdentifierName)

/-- A text between quotes; an absent quote shows as such. -/
def quoted (text : String) (quote : Option String) : String :=
  let mark := quote.getD "None"
  mark ++ text ++ mark

/-- The name of an export as an import clause spells it: bare, or as a literal. -/
def exportNameText (name : String) : String :=
  if isIdentifierName name then name
  else quoted name (some (nameQuote name))

/-- One of the named bindings in an import clause. -/
def specifierText : Node → Except Failure String
  | importSpecifier n none o => do
    if o == some true then return "type " ++ (← n.shownText) else n.text
  | importSpecifier n (some exported) o => do
    let localName ← n.shownText
    let binding := exportNameText (← exported.text) ++ " as " ++ localName
    return if o == some true then "type " ++ binding else binding
  | _ => .error .absentPart

def bracedOrEmpty (items : List String) : String :=
  if items.isEmpty then "\x7b\x7d" else "\x7b " ++ ", ".intercalate items ++ " \x7d"

/-- What an import binds besides the default name. -/
def bindingsText : Option Node → Except Failure (List String)
  | some (namespaceImport n) => do return ["* as " ++ (← n.shownText)]
  | some (namedImports es) => do return [bracedOrEmpty (← (← items es).mapM specifierText)]
  | _ => .ok []

def importText (d : ImportStatement) (specifier : String) : Except Failure String := do
  let keyword := if d.isForTypes then "import type" else "import"
  if !d.hasClause then return keyword ++ " " ++ specifier ++ ";"
  let default ← d.defaultBinding?
  let bindings ← bindingsText d.namedBindings
  return keyword ++ " " ++ ", ".intercalate (default.toList ++ bindings) ++ " from " ++
    specifier ++ ";"

/-- A single parameter stands without parentheses. -/
def parameterText : List Node → Except Failure String
  | [p] => do return (← p.name).shown
  | ps => do
    let names ← ps.mapM name
    return "(" ++ ", ".intercalate (← names.mapM NodeName.asWord) ++ ")"

/-- Expressions whose text is absent. They show as such inside a line of text, and cannot be an
item of a list or a statement. -/
def lacksText : Node → Bool
  | otherExpression _ none => true
  | _ => false

mutual

/-- The text of an expression or a statement. Every other kind is unprintable, and the arguments
of a call are printed before what is called. -/
def print : Node → Except Failure String
  | identifier t => .ok t
  | stringLiteral t q => .ok (quoted t q)
  | propertyAccess e n => do return (← print e) ++ "." ++ n
  | elementAccess e a => do
    let object ← print e
    return object ++ "[" ++ (← print a) ++ "]"
  | callExpression _ none => .error .unfit
  | callExpression e (some as) => do
    let arguments ← printAll as
    if as.any lacksText then .error .unfit
    else return (← print e) ++ "(" ++ ", ".intercalate arguments ++ ")"
  | importCall a => do return "import(" ++ (← print a) ++ ")"
  | arrowFunction none _ => .error .unfit
  | arrowFunction (some ps) none => do return (← parameterText ps) ++ " => \x7b\x7d"
  | arrowFunction (some ps) (some b) => do
    let parameters ← parameterText ps
    return parameters ++ " => " ++ (← print b)
  | parenthesized e => do return "(" ++ (← print e) ++ ")"
  | objectLiteral none => .ok (bracedOrEmpty [])
  | objectLiteral (some ps) => do return bracedOrEmpty (← printProperties ps)
  | otherExpression _ t => .ok (t.getD "None")
  | importDeclaration _ _ _ _ _ (some x) => .ok x
  | importDeclaration s d b o t none => do importText ⟨s, d, b, o, t, none⟩ (← print s)
  | variableStatement ds k _ => do
    return k.keyword ++ " " ++ ", ".intercalate (← printDeclarators ds) ++ ";"
  | rawStatement t _ _ => .ok t
  | n => .error (if n.kind.isSyntax then .unprintable n.kind else .absentPart)

def printAll : List Node → Except Failure (List String)
  | [] => .ok []
  | n :: ns => do
    let first ← print n
    return first :: (← printAll ns)

def printProperties : List Node → Except Failure (List String)
  | [] => .ok []
  | propertyAssignment n i :: ps | variableDeclaration n (some i) :: ps => do
    let value ← print i
    return (n ++ ": " ++ value) :: (← printProperties ps)
  | _ :: _ => .error .absentPart

def printDeclarators : List Node → Except Failure (List String)
  | [] => .ok []
  | variableDeclaration n none :: ds => do return n :: (← printDeclarators ds)
  | propertyAssignment n i :: ds | variableDeclaration n (some i) :: ds => do
    let value ← print i
    return (n ++ " = " ++ value) :: (← printDeclarators ds)
  | _ :: _ => .error .absentPart

end

/-- The text of a node by itself, which may be absent. -/
def print? (n : Node) : Except Failure (Option String) := do
  let text ← n.print
  return if n.lacksText then none else some text

/-- The text of a statement, after its trivia or else the given ones. -/
def printStatement (trivia : String) (s : Node) : Except Failure String := do
  let text ← s.print
  if s.lacksText then .error .unfit else return s.leadingTrivia?.getD trivia ++ text

/-- Statements with the trivia before each; a statement without trivia starts on a new line,
except the first. -/
def printStatements (newline : String) : List Node → Except Failure String
  | [] => .ok ""
  | s :: ss => do
    let first ← printStatement "" s
    let others ← ss.mapM (printStatement newline)
    return first ++ String.join others

/-- A whole module, with what follows its last statement. -/
def printModule (newline : String) (m : Node) : Except Failure String := do
  let ss ← printStatements newline (← m.statements)
  match m with
  | sourceModule _ _ (some t) => return ss ++ t
  | _ => .error .unfit

end DeferredImports.Node
