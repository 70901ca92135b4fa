import DeferredImports.Source.Declarations
import DeferredImports.Source.TypeName

/-! Declared types, told by annotations or by what a function body returns. -/

namespace DeferredImports

namespace ParseTree

def isJsx (t : ParseTree) : Bool :=
  ["jsx_element", "jsx_self_closing_element", "jsx_fragment"].contains t.type

def isFunctionLike (t : ParseTree) : Bool :=
  t.isFunctionDeclaration || t.isFunctionExpression ||
    ["arrow_function", "method_definition"].contains t.type

/-- Scopes whose return statements belong to another function. -/
def isNestedScope (t : ParseTree) : Bool := t.isFunctionLike || t.isClass || t.type == "class_body"

/-- The type of an expression, known only for elements, in parentheses and in both branches of a
conditional as well. -/
def expressionType? (t : ParseTree) : Option TypeSymbol :=
  if t.isJsx then some .jsxElement
  else if t.type == "parenthesized_expression" then
    match _h : t.firstMeaningful? with
    | none => none
    | some inner => inner.expressionType?
  else if t.type == "ternary_expression" then
    match _h : t.child? .consequence, _h' : t.child? .alternative with
    | some a, some b =>
      match a.expressionType? with
      | none => none
      | some type => if b.expressionType? = some type then some type else none
    | _, _ => none
  else none
termination_by sizeOf t
decreasing_by
  · exact sizeOf_lt_of_firstMeaningful? _h
  · exact sizeOf_lt_of_child? _h
  · exact sizeOf_lt_of_child? _h'

mutual

/-- The return statements below a node that belong to the node's own scope. -/
def ownReturns : ParseTree → List ParseTree
  | ⟨_, _, _, _, _, children, _⟩ => ownReturnsIn children

def ownReturnsIn : List ParseTree → List ParseTree
  | [] => []
  | c :: cs =>
    (if !c.isNamed then []
      else if c.type == "return_statement" then [c]
      else if c.isNestedScope then []
      else ownReturns c) ++ ownReturnsIn cs

end

def returnedType? (t : ParseTree) : Option TypeSymbol := t.firstMeaningful?.bind expressionType?

/-- The type that every return statement of a block agrees on. -/
def blockType? (t : ParseTree) : Option TypeSymbol :=
  match t.ownReturns.map returnedType? with
  | some type :: others => if others.all (· = some type) then some type else none
  | _ => none

end ParseTree

namespace SourceFile

/-- The annotated return type of a function, else what its body returns. -/
def returnType? (f : SourceFile) (t : ParseTree) : Option TypeSymbol :=
  match t.child? .returnType with
  | some written => TypeSymbol.ofText? (f.text written)
  | none =>
    match t.child? .body with
    | none => none
    | some body => if body.type == "statement_block" then body.blockType? else body.expressionType?

def callSignature (f : SourceFile) (t : ParseTree) : CallSignature :=
  ⟨(f.parameters t).length, f.returnType? t⟩

/-- Only a written function type can be called. -/
def annotatedType (f : SourceFile) (written : ParseTree) : TypeHandle :=
  let t := written.firstMeaningful?.getD written
  ⟨f.text t, if t.type == "function_type" then [f.callSignature t] else []⟩

def classType (f : SourceFile) (t : ParseTree) : TypeHandle :=
  ⟨"typeof " ++ (f.nameOf? (t.child? .name)).getD "class", []⟩

/-- The type of a value without overloads. -/
def valueType (f : SourceFile) (t : ParseTree) : TypeHandle :=
  if t.type == "variable_declarator" then
    match t.child? .type with
    | some written => f.annotatedType written
    | none =>
      match _h : t.child? .value with
      | none => ⟨"any", []⟩
      | some value => f.valueType value
  else if t.isClass then f.classType t
  else if t.type == "parenthesized_expression" then
    match _h : t.firstMeaningful? with
    | none => ⟨t.type, []⟩
    | some inner => f.valueType inner
  else if t.isFunctionLike then ⟨"function", [f.callSignature t]⟩
  else ⟨t.type, []⟩
termination_by sizeOf t
decreasing_by
  · exact ParseTree.sizeOf_lt_of_child? _h
  · exact ParseTree.sizeOf_lt_of_firstMeaningful? _h

/-- The type of a declaration; the signatures of an overloaded function stand for its own. -/
def declaredType (f : SourceFile) (t : ParseTree) (signatures : List ParseTree) : TypeHandle :=
  if t.isFunctionLike && !signatures.isEmpty then
    ⟨"function", signatures.map f.callSignature⟩
  else f.valueType t

end SourceFile

end DeferredImports
